import GoQuarkChain.Consensus.LLRB

/-!
# qkchash: the Go loop and the native loop

Both implementations of qkchash run the same mixing loop over a cache of
distinct 64-bit words (algorithm.go `qkcHashGo`, native/qkchash.cpp
`qkc_hash_llrb`). Each of the 64 rounds makes 16 accesses; an access removes
the element of rank `p mod size`, inserts `fnv64(p, v)` unless the cache
already holds it, and moves `p` on. Go keeps the cache as a sorted slice with a
set beside it, the native code as an arena LLRB. The loop is one definition
over the access function, instantiated with either.

The seed is the 8 words read from the Keccak-512 of the header and nonce; the
result is the 4 words that become the digest. Words are naturals below
`2 ^ 64`, with the reduction written out in `fnv64`.
-/

namespace Qkchash

open Node

def accessRound : Nat := 64

/-- `INIT_SET_ENTRIES`: the arena of `cache_create` holds this many nodes. -/
def initSetEntries : Nat := 1024 * 64

def fnv64 (a b : Nat) : Nat := a * 0x100000001b3 % 2 ^ 64 ^^^ b

section Loop

variable {σ : Type} (access : σ → Nat → Except Crash (Nat × σ × Nat))

/-- The inner loop of one round: `n` accesses from `p`, with the values read. -/
def accesses : Nat → σ → Nat → Except Crash (List Nat × σ)
  | 0, cache, _ => .ok ([], cache)
  | n + 1, cache, p => do
    let (v, cache, p) ← access cache p
    let (newData, cache) ← accesses n cache p
    return (v :: newData, cache)

/-- Rounds `i, i + 1, …`, `n` of them, each mixing its values into `mix`. -/
def rounds (seedHead : Nat) : Nat → Nat → σ → List Nat → Except Crash (List Nat)
  | _, 0, _, mix => .ok mix
  | i, n + 1, cache, mix => do
    let p := fnv64 (i ^^^ seedHead) (mix.getD (i % mix.length) 0)
    let (newData, cache) ← accesses access mix.length cache p
    rounds seedHead (i + 1) n cache (List.zipWith fnv64 mix newData)

/-- The compression of the 16 mix words into 4. -/
def compress : List Nat → List Nat
  | a :: b :: c :: d :: rest => fnv64 (fnv64 (fnv64 a b) c) d :: compress rest
  | _ => []

/-- The mixing loop of both implementations, from the 8 seed words. -/
def qkcHashWith (cache : σ) (seed : List Nat) : Except Crash (List Nat) := do
  let mix := (List.range 16).map fun i => seed.getD (i % 8) 0
  let mix ← rounds access (seed.getD 0 0) 0 accessRound cache mix
  return compress mix

end Loop

/-- The insertion of `qkcHashGo`: `p` goes in before the first element above
it, unless `cacheSet` holds it. The map holds exactly the slice's elements, so
its lookup is membership in the slice, and on a sorted slice `sort.Search`
finds the first element above `p`. -/
def insertIfAbsent (p : Nat) (cacheLs : List Nat) : List Nat :=
  if p ∈ cacheLs then cacheLs else cacheLs.insertIdx (cacheLs.findIdx (p < ·)) p

/-- One access of `qkcHashGo` on the sorted slice `cacheLs`. A zero length is
Go's integer division by zero. -/
def accessGo (cacheLs : List Nat) (p : Nat) : Except Crash (Nat × List Nat × Nat) := do
  if cacheLs.length = 0 then throw .divideByZero
  let idx := p % cacheLs.length
  let v := cacheLs.getD idx 0
  let cacheLs := cacheLs.eraseIdx idx
  let p := fnv64 p v
  return (v, insertIfAbsent p cacheLs, fnv64 p v)

/-- One access of `qkc_hash_llrb`: `insert` is called whether or not the tree
already holds the new word. -/
def accessLlrb (cache : LLRB Nat) (p : Nat) : Except Crash (Nat × LLRB Nat × Nat) := do
  if cache.size = 0 then throw .divideByZero
  let idx := p % cache.size
  let (v, cache) ← cache.eraseByOrder idx
  let p := fnv64 p v
  let cache ← cache.insert p
  return (v, cache, fnv64 p v)

/-- `qkcHashGo` between the seed words and the digest words. -/
def qkcHashGo (cacheLs : List Nat) (seed : List Nat) : Except Crash (List Nat) :=
  qkcHashWith accessGo cacheLs seed

def qkcHashLlrb (cache : LLRB Nat) (seed : List Nat) : Except Crash (List Nat) :=
  qkcHashWith accessLlrb cache seed

/-- `cache_create`: an arena of `INIT_SET_ENTRIES` nodes, the words inserted in order. -/
def cacheCreate (cache : List Nat) : Except Crash (LLRB Nat) :=
  cache.foldlM LLRB.insert (LLRB.new initSetEntries)

/-- `qkc_hash` through `qkc_hashx` without rotation statistics: the copy of
`tree0` into a fresh arena is, as a value, `tree0` itself. -/
def qkcHash (tree0 : LLRB Nat) (seed : List Nat) : Except Crash (List Nat) :=
  qkcHashLlrb tree0 seed

/-! ## `cache_create` -/

/-- `cache_create` of a strictly increasing list that fits the arena builds a
search tree holding exactly that list, with correct rank fields, and `size()`
counts its nodes. -/
theorem cacheCreate_keys {cache : List Nat} (hs : cache.Pairwise (· < ·))
    (hn : cache.length ≤ initSetEntries) :
    ∃ t, cacheCreate cache = .ok t ∧ t.root.keys = cache ∧ t.root.Valid ∧
      t.size = cache.length := by
  obtain ⟨t, e, hk, hv, hc, hf⟩ :=
    LLRB.foldlM_insert (t := LLRB.new initSetEntries) ⟨by simp [LLRB.new], trivial⟩
      (by simp [LLRB.new]) hs (by simpa [LLRB.new] using hn)
  refine ⟨t, e, by simpa [LLRB.new] using hk, hv, ?_⟩
  simp only [LLRB.size, hc, hf, LLRB.new]
  omega

/-! ## Runs of the loop -/

section Run

variable {σ : Type} (access : σ → Nat → Except Crash (Nat × σ × Nat)) (m : σ → Nat)

/-- Measured by `m`, an access on a nonempty cache succeeds and shrinks the
cache by at most one element. -/
def Shrinks : Prop :=
  ∀ c p, 0 < m c → ∃ v c' p', access c p = .ok (v, c', p') ∧ m c ≤ m c' + 1

variable {access m}

theorem accesses_ok (h : Shrinks access m) :
    ∀ {n : Nat} {c : σ} {p : Nat}, n ≤ m c →
      ∃ data c', accesses access n c p = .ok (data, c') ∧ data.length = n ∧ m c ≤ m c' + n
  | 0, c, _, _ => ⟨[], c, rfl, rfl, by omega⟩
  | n + 1, c, p, hn => by
    obtain ⟨v, c₁, p₁, e₁, h₁⟩ := h c p (by omega)
    obtain ⟨data, c', e', hl, h'⟩ := accesses_ok h (n := n) (c := c₁) (p := p₁) (by omega)
    exact ⟨v :: data, c', by simp [accesses, e₁, e'], by simp [hl], by omega⟩

theorem rounds_ok (h : Shrinks access m) (seedHead : Nat) :
    ∀ {i n : Nat} {c : σ} {mix : List Nat}, mix.length = 16 → n * 16 ≤ m c →
      ∃ mix', rounds access seedHead i n c mix = .ok mix'
  | _, 0, _, mix, _, _ => ⟨mix, rfl⟩
  | i, n + 1, c, mix, hmix, hn => by
    obtain ⟨data, c', e, hl, h'⟩ :=
      accesses_ok h (n := mix.length) (c := c)
        (p := fnv64 (i ^^^ seedHead) (mix.getD (i % mix.length) 0)) (by omega)
    have hmix' : (List.zipWith fnv64 mix data).length = 16 := by simp [hl, hmix]
    obtain ⟨mix', e'⟩ := rounds_ok h seedHead (i := i + 1) (n := n) (c := c') hmix' (by omega)
    refine ⟨mix', ?_⟩
    simp only [rounds]
    rw [e]
    exact e'

/-- A cache of at least `64 * 16` elements never runs empty: the loop returns. -/
theorem qkcHashWith_ok (h : Shrinks access m) {cache : σ} (hc : accessRound * 16 ≤ m cache)
    (seed : List Nat) : ∃ r, qkcHashWith access cache seed = .ok r := by
  have hmix : ((List.range 16).map fun i => seed.getD (i % 8) 0).length = 16 := by simp
  obtain ⟨mix, e⟩ := rounds_ok h (seed.getD 0 0) (i := 0) (n := accessRound) (c := cache) hmix hc
  refine ⟨compress mix, ?_⟩
  simp only [qkcHashWith]
  rw [e]
  rfl

/-- What every access keeps, every inner loop keeps. -/
theorem accesses_preserves {I : σ → Prop}
    (hI : ∀ {c p v c' p'}, I c → access c p = .ok (v, c', p') → I c') :
    ∀ {n : Nat} {c c' : σ} {p : Nat} {data : List Nat}, I c →
      accesses access n c p = .ok (data, c') → I c'
  | 0, c, c', _, _, hc, e => by
    simp only [accesses] at e
    cases e
    exact hc
  | n + 1, c, c', p, data, hc, e => by
    obtain ⟨⟨v, c₁, p₁⟩, e₁, e⟩ := Except.bind_eq_ok.mp e
    obtain ⟨⟨data', c₂⟩, e₂, e⟩ := Except.bind_eq_ok.mp e
    cases e
    exact accesses_preserves hI (hI hc e₁) e₂

end Run

/-! ## The Go loop -/

theorem accessGo_eq {ls : List Nat} (p : Nat) (hl : 0 < ls.length) :
    accessGo ls p =
      .ok (ls.getD (p % ls.length) 0,
        insertIfAbsent (fnv64 p (ls.getD (p % ls.length) 0)) (ls.eraseIdx (p % ls.length)),
        fnv64 (fnv64 p (ls.getD (p % ls.length) 0)) (ls.getD (p % ls.length) 0)) := by
  simp only [accessGo, Nat.pos_iff_ne_zero.mp hl, if_false]
  rfl

theorem length_insertIfAbsent (p : Nat) (ls : List Nat) :
    ls.length ≤ (insertIfAbsent p ls).length := by
  unfold insertIfAbsent
  split_ifs
  · exact le_rfl
  · rw [List.length_insertIdx]
    split_ifs <;> omega

theorem accessGo_shrinks : Shrinks accessGo List.length := by
  intro ls p hl
  refine ⟨_, _, _, accessGo_eq p hl, ?_⟩
  have hle := length_insertIfAbsent (fnv64 p (ls.getD (p % ls.length) 0))
    (ls.eraseIdx (p % ls.length))
  rw [List.length_eraseIdx, if_pos (Nat.mod_lt _ hl)] at hle
  omega

/-- `qkcHashGo` on a slice of at least `64 * 16` words returns a result. -/
theorem qkcHashGo_ok {cacheLs : List Nat} (hc : 64 * 16 ≤ cacheLs.length) (seed : List Nat) :
    ∃ r, qkcHashGo cacheLs seed = .ok r :=
  qkcHashWith_ok accessGo_shrinks hc seed

/-- Inserting a word the strictly sorted slice lacks keeps it strictly sorted. -/
theorem insertIfAbsent_sorted {ls : List Nat} (p : Nat) (hs : ls.Pairwise (· < ·)) :
    (insertIfAbsent p ls).Pairwise (· < ·) := by
  unfold insertIfAbsent
  split_ifs with hm
  · exact hs
  · rw [List.insertIdx_findIdx_eq_orderedInsert hm]
    exact hs.orderedInsert_lt hm

/-- The Go cache stays a strictly sorted set: an access removes one element and
inserts the new word at its place in the order when it is new. -/
theorem accessGo_sorted {ls ls' : List Nat} {p v p' : Nat} (hs : ls.Pairwise (· < ·))
    (e : accessGo ls p = .ok (v, ls', p')) : ls'.Pairwise (· < ·) := by
  by_cases hl : ls.length = 0
  · simp [accessGo, hl] at e
  · rw [accessGo_eq p (Nat.pos_of_ne_zero hl)] at e
    cases e
    exact insertIfAbsent_sorted _ (hs.sublist (List.eraseIdx_sublist _ _))

/-- Every inner loop of the Go implementation keeps its cache a strictly sorted set, the
order `sort.Search` relies on. -/
theorem accessesGo_sorted {n : Nat} {ls ls' : List Nat} {p : Nat} {data : List Nat}
    (hs : ls.Pairwise (· < ·)) (e : accesses accessGo n ls p = .ok (data, ls')) :
    ls'.Pairwise (· < ·) :=
  accesses_preserves (I := fun ls => ls.Pairwise (· < ·)) accessGo_sorted hs e

/-- Two accesses from `1` on the words `1, 2, 3, 4`. -/
theorem accessesGo_sorted_fourWords :
    ∃ data ls', accesses accessGo 2 [1, 2, 3, 4] 1 = .ok (data, ls') ∧ ls'.Pairwise (· < ·) := by
  obtain ⟨data, ls', e⟩ : ∃ data ls', accesses accessGo 2 [1, 2, 3, 4] 1 = .ok (data, ls') :=
    ⟨_, _, rfl⟩
  exact ⟨data, ls', e, accessesGo_sorted (by decide) e⟩

/-! ## The native loop after a duplicate -/

/-- `0, 1, …, 1023` and the word that the first access from `failingSeed`
generates after removing `435`. -/
def failingCache : List Nat := List.range 1024 ++ [955475604725957]

def failingSeed : List Nat := [1, 0, 0, 0, 0, 0, 0, 0]

set_option maxRecDepth 100000 in
/-- A sorted cache of 1025 words and a seed on which the Go loop returns, while
the native loop crashes at the second access: the first one generates a word
the cache holds, Go skips it, and `qkc_hash_llrb` inserts it, losing the root
with `size()` still 1024. -/
theorem qkcHash_duplicate_insert_crashes :
    failingCache.Pairwise (· < ·) ∧ (∀ x ∈ failingCache, x < 2 ^ 64) ∧
      64 * 16 < failingCache.length ∧ failingCache.length ≤ initSetEntries ∧
      (∃ r, qkcHashGo failingCache failingSeed = .ok r) ∧
      (cacheCreate failingCache >>= fun tree0 => qkcHash tree0 failingSeed) =
        .error .nullDereference := by
  have hsorted : failingCache.Pairwise (· < ·) := by
    simp only [failingCache, List.pairwise_append, List.pairwise_lt_range, true_and,
      List.pairwise_singleton, List.mem_range, List.mem_singleton]
    intro x hx y hy
    omega
  have hbound : ∀ x ∈ failingCache, x < 2 ^ 64 := by
    simp only [failingCache, List.mem_append, List.mem_range, List.mem_singleton]
    intro x hx
    omega
  refine ⟨hsorted, hbound, by decide, by decide, qkcHashGo_ok (by decide) _, ?_⟩
  decide +kernel

end Qkchash
