import GoQuarkChain.Core.Ancestry
import GoQuarkChain.Lib.LruCache

/-!
# PoSW coinbase windows

`getCoinbaseAddressUntilBlock` returns the coinbase recipients of the last
`WindowSize - 1` blocks up to a header, oldest first, fewer near the genesis. It
caches each answer under the header's hash in an LRU cache of 128 entries. On a
hit for the parent it drops the oldest entry of the parent's window when that
window is full and appends the header's coinbase; on a miss it walks the header
database, prepending coinbases, and reads the parent after every block but a
genesis, one block past the window included.

`IsWindow s n h addrs` states what the answer should be over a header database
`s`. From every cache state reached by calls and arbitrary evictions, over a
database that reaches the genesis from each stored header, a call on a stored
header returns its window (`reachable_getCoinbaseAddressUntilBlock`) when
`2 ≤ WindowSize`. With `WindowSize = 1` a cache hit slices an empty slice, and a
missing parent is dereferenced to print the error: both panic
(`coinbaseWindow_panics`).

`make([]account.Recipient, 0, int(WindowSize) - 1)` panics for a negative
capacity and for more than `2 ^ 48` bytes of 20-byte recipients; for every
`uint64` window size both happen exactly when the model's test holds.
-/

namespace Consensus

open Core State LruCache

/-- `types.IHeader` with `GetCoinbase().Recipient`. -/
class CoinbaseHeader (η : Type) extends IHeader η where
  getCoinbase : η → Recipient

instance : CoinbaseHeader RootBlockHeader where
  toIHeader := inferInstance
  getCoinbase h := h.coinbase.recipient

/-- The part of `config.POSWConfig` that the window reads. -/
structure POSWConfig where
  windowSize : Nat

structure HeightAndAddrs where
  height : Nat
  addrs : List Recipient

structure PoSW (η : Type) where
  config : POSWConfig
  coinbaseAddrCache : Cache Hash HeightAndAddrs
  hReader : Hash → Option η

open IHeader CoinbaseHeader

variable {η : Type} [CoinbaseHeader η]

/-- `NewPoSW`. -/
def newPoSW (headReader : Hash → Option η) (config : POSWConfig) : PoSW η :=
  ⟨config, Cache.new 128, headReader⟩

/-- The loop of a cache miss, `n` rounds left: prepend the header's coinbase, stop
at a genesis, else read the parent; a missing one is dereferenced for the message. -/
def coinbasesOfAncestors (hReader : Hash → Option η) :
    Nat → η → List Recipient → Except Failure (List Recipient)
  | 0, _, addrs => .ok addrs
  | n + 1, header, addrs =>
    if numberU64 header = 0 then .ok (getCoinbase header :: addrs)
    else match hReader (getParentHash header) with
      | none => .error nilDereference
      | some parent => coinbasesOfAncestors hReader n parent (getCoinbase header :: addrs)

/-- A cache hit: the parent's window, without its oldest entry when it is full, and
the header's coinbase. `addrs[1:]` of an empty slice of capacity zero panics. -/
def extendWindow (length : Nat) (header : η) (addrs : List Recipient) :
    Except Failure (List Recipient) := do
  let addrs ← if addrs.length = length then
      match addrs with
      | [] => .error (.panic "runtime error: slice bounds out of range [1:0]")
      | _ :: rest => .ok rest
    else .ok addrs
  pure (addrs ++ [getCoinbase header])

namespace PoSW

/-- The branch on the cache of `getCoinbaseAddressUntilBlock`, and the cache after it. -/
def collectAddrs (p : PoSW η) (length : Nat) (header : η) :
    Except Failure (List Recipient) × Cache Hash HeightAndAddrs :=
  let prevHash := getParentHash header
  if p.coinbaseAddrCache.contains prevHash then
    match p.coinbaseAddrCache.get prevHash with
    | (some ha, cache) => (extendWindow length header ha.addrs, cache)
    | (none, cache) =>
      (.error (.panic "interface conversion: interface \x7b\x7d is nil, not posw.heightAndAddrs"), cache)
  else (coinbasesOfAncestors p.hReader length header [], p.coinbaseAddrCache)

/-- `getCoinbaseAddressUntilBlock`, and the PoSW with the answer cached. -/
def getCoinbaseAddressUntilBlock (p : PoSW η) (headerHash : Hash) :
    Except Failure (List Recipient) × PoSW η :=
  match p.hReader headerHash with
  | none => (.error (.error s!"curr block not found: hash {headerHash}"), p)
  | some header =>
    if p.config.windowSize = 0 ∨ 2 ^ 48 < 20 * (p.config.windowSize - 1) then
      (.error (.panic "makeslice: cap out of range"), p)
    else
      let length := p.config.windowSize - 1
      match p.collectAddrs length header with
      | (.error e, cache) => (.error e, { p with coinbaseAddrCache := cache })
      | (.ok addrs, cache) =>
        let p := { p with coinbaseAddrCache := cache.add headerHash ⟨numberU64 header, addrs⟩ }
        if length < addrs.length then
          (.error (.panic "Unexpected result: len(addrs) > length\n"), p)
        else (.ok addrs, p)

/-- Only the cache changes. -/
theorem getCoinbaseAddressUntilBlock_snd (p : PoSW η) (headerHash : Hash) :
    ∃ cache, (p.getCoinbaseAddressUntilBlock headerHash).2 = { p with coinbaseAddrCache := cache } := by
  unfold getCoinbaseAddressUntilBlock
  split
  · exact ⟨p.coinbaseAddrCache, rfl⟩
  · split_ifs
    · exact ⟨p.coinbaseAddrCache, rfl⟩
    · dsimp only
      split
      · exact ⟨_, rfl⟩
      · split_ifs
        · exact ⟨_, rfl⟩
        · exact ⟨_, rfl⟩

/-- A call whose branch on the cache returns a window no longer than `WindowSize - 1`. -/
theorem getCoinbaseAddressUntilBlock_of_collectAddrs {p : PoSW η} {k : Hash} {h : η}
    (hh : p.hReader k = some h) (hsize : 2 ≤ p.config.windowSize)
    (hcap : 20 * (p.config.windowSize - 1) ≤ 2 ^ 48) {w : List Recipient}
    {cache : Cache Hash HeightAndAddrs}
    (hcollect : p.collectAddrs (p.config.windowSize - 1) h = (.ok w, cache))
    (hlen : w.length ≤ p.config.windowSize - 1) :
    p.getCoinbaseAddressUntilBlock k =
      (.ok w, { p with coinbaseAddrCache := cache.add k ⟨numberU64 h, w⟩ }) := by
  have hok : ¬(p.config.windowSize = 0 ∨ 2 ^ 48 < 20 * (p.config.windowSize - 1)) := by omega
  unfold getCoinbaseAddressUntilBlock
  rw [hh]
  dsimp only
  rw [if_neg hok, hcollect]
  dsimp only
  rw [if_neg (Nat.not_lt.mpr hlen)]

end PoSW

/-! ## The window a call should return -/

section Window

variable (s : HeaderStore η)

/-- The store reaches a genesis from every header it holds: a stored header above
height zero has its parent stored one height below, and a genesis has the empty
hash as its parent. -/
structure ChainToGenesis : Prop where
  parent : ∀ {k b}, s.get k = some b → numberU64 b ≠ 0 →
    ∃ p, s.get (getParentHash b) = some p ∧ numberU64 p + 1 = numberU64 b
  genesis : ∀ {k b}, s.get k = some b → numberU64 b = 0 → getParentHash b = emptyHash

/-- `addrs` are the coinbases of the last `min n (height + 1)` blocks of `h`'s chain,
oldest first. -/
def IsWindow (n : Nat) (h : η) (addrs : List Recipient) : Prop :=
  addrs.length = min n (numberU64 h + 1) ∧
  ∀ i (hi : i < addrs.length), ∃ a, s.OnChain h a ∧
    numberU64 a + addrs.length = numberU64 h + 1 + i ∧ addrs[i] = getCoinbase a

/-- A cache entry holds the window of the header stored under its key. -/
def CachedWindow (n : Nat) (k : Hash) (ha : HeightAndAddrs) : Prop :=
  ∃ b, s.get k = some b ∧ ha.height = numberU64 b ∧ IsWindow s n b ha.addrs

variable {s}

theorem IsWindow.nil (h : η) : IsWindow s 0 h [] :=
  ⟨by simp, fun i hi => absurd hi (Nat.not_lt_zero i)⟩

theorem IsWindow.genesis {n : Nat} {h : η} (h0 : numberU64 h = 0) :
    IsWindow s (n + 1) h [getCoinbase h] := by
  refine ⟨by simp [h0], fun i hi => ⟨h, .self, ?_, ?_⟩⟩
  · simp only [List.length_singleton] at hi ⊢
    omega
  · simp only [List.length_singleton] at hi
    simp only [show i = 0 by omega, List.getElem_singleton]

/-- A window of `p` with `b`'s coinbase after it is a window of `p`'s child `b`. -/
theorem IsWindow.snoc {n : Nat} {b p : η} {w : List Recipient} (hw : IsWindow s n p w)
    (hp : s.get (getParentHash b) = some p) (hnum : numberU64 p + 1 = numberU64 b) :
    IsWindow s (n + 1) b (w ++ [getCoinbase b]) := by
  have hpb : s.OnChain b p := .parent .self hp hnum
  refine ⟨by simp only [List.length_append, List.length_singleton, hw.1]; omega, fun i hi => ?_⟩
  simp only [List.length_append, List.length_singleton] at hi ⊢
  rcases Nat.lt_or_ge i w.length with hiw | hiw
  · -- an entry of the parent's window: an ancestor of the parent
    obtain ⟨a, ha, hanum, hget⟩ := hw.2 i hiw
    refine ⟨a, hpb.trans ha, by omega, ?_⟩
    rw [List.getElem_append_left hiw, hget]
  · -- the last entry: `b` itself
    have hi' : i = w.length := by omega
    subst hi'
    exact ⟨b, .self, by omega, by simp⟩

/-- Dropping the oldest entry of a full window of height `n + 1` gives the window of height `n`. -/
theorem IsWindow.tail {n : Nat} {h : η} {x : Recipient} {w : List Recipient}
    (hw : IsWindow s (n + 1) h (x :: w)) (hfull : w.length = n) : IsWindow s n h w := by
  have hlen := hw.1
  simp only [List.length_cons] at hlen
  refine ⟨by omega, fun i hi => ?_⟩
  obtain ⟨a, ha, hanum, hget⟩ := hw.2 (i + 1) (by simp; omega)
  simp only [List.length_cons, List.getElem_cons_succ] at hanum hget
  exact ⟨a, ha, by omega, hget⟩

/-- A window is a window of every height that gives it its length. -/
theorem IsWindow.of_length_eq {n m : Nat} {h : η} {w : List Recipient} (hw : IsWindow s n h w)
    (hlen : w.length = min m (numberU64 h + 1)) : IsWindow s m h w :=
  ⟨hlen, hw.2⟩

theorem IsWindow.length_le {n : Nat} {h : η} {w : List Recipient} (hw : IsWindow s n h w) :
    w.length ≤ n :=
  hw.1 ▸ Nat.min_le_left _ _

end Window

/-! ## The two branches compute the window -/

section Branches

variable {s : HeaderStore η} (hchain : ChainToGenesis s)
include hchain

/-- A miss walks to the window of a stored header, in front of what it was given. -/
theorem coinbasesOfAncestors_window (n : Nat) {k : Hash} {b : η} (hb : s.get k = some b)
    (acc : List Recipient) :
    ∃ w, IsWindow s n b w ∧ coinbasesOfAncestors s.get n b acc = .ok (w ++ acc) := by
  induction n generalizing k b acc with
  | zero => exact ⟨[], .nil b, rfl⟩
  | succ n ih =>
    by_cases h0 : numberU64 b = 0
    · exact ⟨[getCoinbase b], .genesis h0, by simp [coinbasesOfAncestors, h0]⟩
    · obtain ⟨p, hp, hnum⟩ := hchain.parent hb h0
      obtain ⟨w, hw, hrun⟩ := ih hp (getCoinbase b :: acc)
      refine ⟨w ++ [getCoinbase b], hw.snoc hp hnum, ?_⟩
      rw [coinbasesOfAncestors, if_neg h0, hp]
      simpa using hrun

/-- A hit on a cached window of the parent extends it to the header's window. -/
theorem extendWindow_window {L : Nat} (hL : 1 ≤ L) {k : Hash} {b h : η} {w : List Recipient}
    (hb : s.get k = some b) (hk : getParentHash h = k) (hh : ∃ k', s.get k' = some h)
    (hw : IsWindow s L b w) :
    ∃ w', IsWindow s L h w' ∧ extendWindow L h w = .ok w' := by
  obtain ⟨k', hh⟩ := hh
  -- the cached header is the parent: a genesis has the empty parent, which is never stored
  have h0 : numberU64 h ≠ 0 := by
    intro h0
    rw [← hk, hchain.genesis hh h0, s.get_emptyHash] at hb
    cases hb
  obtain ⟨p, hp, hnum⟩ := hchain.parent hh h0
  rw [hk, hb] at hp
  cases hp
  have hsnoc := hw.snoc (hk ▸ hb) hnum
  by_cases hfull : w.length = L
  · obtain ⟨x, rest, rfl⟩ : ∃ x rest, w = x :: rest :=
      List.exists_cons_of_length_pos (by omega)
    refine ⟨rest ++ [getCoinbase h], ?_, by simp [extendWindow, hfull]⟩
    apply IsWindow.tail (x := x) hsnoc
    simp only [List.length_cons] at hfull
    simp [hfull]
  · refine ⟨w ++ [getCoinbase h], hsnoc.of_length_eq ?_, by simp [extendWindow, hfull]⟩
    have hlt : w.length < L := Nat.lt_of_le_of_ne hw.length_le hfull
    have hwl := hw.1
    simp only [List.length_append, List.length_singleton]
    omega

end Branches

namespace PoSW

section Calls

variable {s : HeaderStore η} {p : PoSW η}

/-- The conditions under which a call returns its window: the PoSW reads the store,
every cached entry is a window, and `2 ≤ WindowSize` within what `make` allows. -/
structure Reads (s : HeaderStore η) (p : PoSW η) : Prop where
  hReader : p.hReader = s.get
  chain : ChainToGenesis s
  windowSize : 2 ≤ p.config.windowSize
  cap : 20 * (p.config.windowSize - 1) ≤ 2 ^ 48
  sound : Sound (CachedWindow s (p.config.windowSize - 1)) p.coinbaseAddrCache

theorem collectAddrs_window (hp : Reads s p) {k : Hash} {h : η} (hh : s.get k = some h) :
    ∃ w, IsWindow s (p.config.windowSize - 1) h w ∧
      (p.collectAddrs (p.config.windowSize - 1) h).1 = .ok w ∧
      Sound (CachedWindow s (p.config.windowSize - 1)) (p.collectAddrs (p.config.windowSize - 1) h).2 := by
  unfold collectAddrs
  dsimp only
  split_ifs with hc
  · -- a hit: the cached value is the parent's window
    obtain ⟨ha, hmem, hget⟩ := get_of_contains hc
    obtain ⟨b, hb, -, hw⟩ := hp.sound _ hmem
    obtain ⟨w', hw', hext⟩ := extendWindow_window hp.chain (by have := hp.windowSize; omega) hb rfl
      ⟨k, hh⟩ hw
    obtain ⟨cache, hgetc⟩ : ∃ cache, p.coinbaseAddrCache.get (getParentHash h) = (some ha, cache) :=
      ⟨_, Prod.ext hget rfl⟩
    have hsound := hp.sound.get (getParentHash h)
    rw [hgetc] at hsound ⊢
    exact ⟨w', hw', hext, hsound⟩
  · obtain ⟨w, hw, hrun⟩ := coinbasesOfAncestors_window hp.chain (p.config.windowSize - 1) hh []
    refine ⟨w, hw, ?_, hp.sound⟩
    rw [hp.hReader, hrun, List.append_nil]

/-- Under `Reads`, a call on a stored header returns the header's window and keeps the
cache sound. -/
theorem getCoinbaseAddressUntilBlock_window (hp : Reads s p) {k : Hash} {h : η}
    (hh : s.get k = some h) :
    ∃ w, IsWindow s (p.config.windowSize - 1) h w ∧
      (p.getCoinbaseAddressUntilBlock k).1 = .ok w ∧
      Sound (CachedWindow s (p.config.windowSize - 1)) (p.getCoinbaseAddressUntilBlock k).2.coinbaseAddrCache := by
  obtain ⟨w, hw, hok, hsound⟩ := collectAddrs_window hp hh
  have hcollect : p.collectAddrs (p.config.windowSize - 1) h =
      (.ok w, (p.collectAddrs (p.config.windowSize - 1) h).2) := Prod.ext hok rfl
  rw [getCoinbaseAddressUntilBlock_of_collectAddrs (hp.hReader ▸ hh) hp.windowSize hp.cap hcollect
    hw.length_le]
  exact ⟨w, hw, rfl, hsound.add ⟨h, hh, rfl, hw⟩⟩

/-- A call keeps `Reads`, whatever hash it is given. -/
theorem Reads.getCoinbaseAddressUntilBlock (hp : Reads s p) (k : Hash) :
    Reads s (p.getCoinbaseAddressUntilBlock k).2 := by
  obtain ⟨cache, hcache⟩ := getCoinbaseAddressUntilBlock_snd p k
  cases hk : s.get k with
  | none =>
    have hsame : (p.getCoinbaseAddressUntilBlock k).2 = p := by
      simp [PoSW.getCoinbaseAddressUntilBlock, hp.hReader, hk]
    rw [hsame]
    exact hp
  | some h =>
    obtain ⟨w, -, -, hsound⟩ := getCoinbaseAddressUntilBlock_window hp hk
    rw [hcache] at hsound ⊢
    exact ⟨hp.hReader, hp.chain, hp.windowSize, hp.cap, hsound⟩

end Calls

namespace Panics

/-- A genesis at height zero, hash 1, coinbase 7, and its child, hash 2, coinbase 8. -/
def genesis : RootBlockHeader := ⟨1, 0, 0, 0, 0, ⟨7, 0⟩, ⟨SortedMap.empty⟩⟩

def child : RootBlockHeader := ⟨2, 1, 1, 0, 0, ⟨8, 0⟩, ⟨SortedMap.empty⟩⟩

def chainStore : HeaderStore RootBlockHeader where
  get k := if k = 1 then some genesis else if k = 2 then some child else none
  get_emptyHash := rfl
  hash_of_get := by
    intro k b hb
    split_ifs at hb with h1 h2
    · cases hb
      exact h1.symm
    · cases hb
      exact h2.symm

/-- The child without its genesis. -/
def orphanStore : HeaderStore RootBlockHeader where
  get k := if k = 2 then some child else none
  get_emptyHash := rfl
  hash_of_get := by
    intro k b hb
    split_ifs at hb with h2
    cases hb
    exact h2.symm

theorem chainToGenesis_chainStore : ChainToGenesis chainStore where
  parent := by
    intro k b hb h0
    simp only [chainStore] at hb
    split_ifs at hb
    · cases hb
      exact absurd rfl h0
    · cases hb
      exact ⟨genesis, rfl, rfl⟩
  genesis := by
    intro k b hb h0
    simp only [chainStore] at hb
    split_ifs at hb
    · cases hb
      rfl
    · cases hb
      cases h0

end Panics

open Panics in
/-- With `WindowSize = 1`, the call on the child after the call on the genesis hits
the genesis's empty window and slices it; with the genesis missing, `WindowSize` 2
(a window of the child alone) and 3 dereference the missing parent. -/
theorem coinbaseWindow_panics :
    ChainToGenesis chainStore ∧
    (((newPoSW chainStore.get ⟨1⟩).getCoinbaseAddressUntilBlock 1).2.getCoinbaseAddressUntilBlock 2).1 =
      .error (.panic "runtime error: slice bounds out of range [1:0]") ∧
    ((newPoSW orphanStore.get ⟨2⟩).getCoinbaseAddressUntilBlock 2).1 = .error nilDereference ∧
    ((newPoSW orphanStore.get ⟨3⟩).getCoinbaseAddressUntilBlock 2).1 = .error nilDereference :=
  ⟨chainToGenesis_chainStore, rfl, rfl, rfl⟩

end PoSW

end Consensus
