import GoQuarkChain.Consensus.Qkchash
import GoQuarkChain.Lib.BigEndian

/-!
# The epoch caches of qkchash

Qkchash looks up the cache of a block's epoch, `EpochLength` blocks long, in a
`cacheSeed` (algorithm.go). `NewcacheSeed` stores the cache of 32 zero bytes. A
lookup past the stored caches takes the lock and appends the missing caches and
`cacheAheadRound` more, each seed the Keccak-256 of the one before, from the
last stored seed; how many it appends is computed from the length read before
the lock.

A cache (`generateCache`) is the distinct 64-bit words of the Keccak-512 digests
of the seed followed by a big-endian `uint32` counter, sorted. The Go loop reads
them as a slice; the native loop reads the arena tree that `cache_create` builds
from that slice. Both hash functions are parameters.

From `NewcacheSeed`, whatever lookups are made one after another, the `i`-th
stored cache is the cache of the `i`-th hash of the zero seed, and a lookup
returns the cache of its epoch. Lookups from several goroutines are not modelled:
the unlocked read of `c.caches` races with the locked append, and Go gives such a
read of a slice header no atomicity.
-/

namespace Qkchash

def cacheEntryCnt : Nat := 1024 * 64

def cacheAheadRound : Nat := 64

/-- `EpochLength`: blocks per epoch. -/
def epochLength : Nat := 30000

/-- `qkcCache`. Beside `ls` the source keeps `set`, a map holding exactly its elements;
the model of `qkcHashGo` reads membership in `ls` in its place. -/
structure QkcCache where
  ls : List Nat
  nativeCache : Option (LLRB Nat)
  seed : List UInt8

/-- `binary.LittleEndian.Uint64`. -/
def littleEndianUint64 (b : List UInt8) : Nat :=
  (b.take 8).foldr (fun x acc => x.toNat + 256 * acc) 0

/-- The words of a Keccak-512 digest, read 8 bytes at a time. -/
def digestWords (bs : Vector UInt8 64) : List Nat :=
  (List.range 8).map fun j => littleEndianUint64 (bs.toList.drop (8 * j))

/-- A word of the loop of `generateCache`: appended unless `set`, which holds the elements
of `ls`, has it. -/
def appendIfAbsent (ls : List Nat) (ele : Nat) : List Nat :=
  if ele ∈ ls then ls else ls ++ [ele]

/-- `common.Hash{}.Bytes()`, the seed of the first cache. -/
def zeroSeed : List UInt8 := List.replicate 32 0

/-- `cacheSeed` without its lock. -/
structure CacheSeed where
  caches : List QkcCache

/-- How a lookup fails: `cache_create` crashes, or an index is out of range. -/
inductive LookupError where
  | crash (c : Crash)
  | indexOutOfRange

section Hashes

variable (keccak256 : List UInt8 → List UInt8) (keccak512 : List UInt8 → Vector UInt8 64)

/-- The loop of `generateCache` before the sort. -/
def cacheWords (cnt : Nat) (seed : List UInt8) : List Nat :=
  (List.range (cnt / 8 % 2 ^ 32)).foldl
    (fun ls i => (digestWords (keccak512 (seed ++ BigEndian.fixed 4 i))).foldl appendIfAbsent ls) []

def generateCache (cnt : Nat) (seed : List UInt8) (genNativeCache : Bool) :
    Except Crash QkcCache := do
  let ls := (cacheWords keccak512 cnt seed).mergeSort
  if genNativeCache then
    let nativeCache ← cacheCreate ls
    return ⟨[], some nativeCache, seed⟩
  else
    return ⟨ls, none, seed⟩

def newcacheSeed (useNative : Bool) : Except Crash CacheSeed := do
  let firstCache ← generateCache keccak512 cacheEntryCnt zeroSeed useNative
  return ⟨[firstCache]⟩

/-- The loop under the lock: `n` more caches, each seed the hash of the one before. -/
def addCaches (useNative : Bool) : Nat → List UInt8 → List QkcCache → Except Crash (List QkcCache)
  | 0, _, caches => .ok caches
  | n + 1, seed, caches => do
    let seed := keccak256 seed
    let cache ← generateCache keccak512 cacheEntryCnt seed useNative
    addCaches useNative n seed (caches ++ [cache])

/-- What `getCacheFromHeight` does under the lock, with `lenCaches` as it was read before. -/
def extendCaches (epoch lenCaches : Nat) (useNative : Bool) (c : CacheSeed) :
    Except LookupError (QkcCache × CacheSeed) := do
  let needAddCnt := epoch - lenCaches + cacheAheadRound
  let some last := c.caches.getLast? | throw .indexOutOfRange
  let caches ← (addCaches keccak256 keccak512 useNative needAddCnt last.seed c.caches).mapError .crash
  let some cache := caches[epoch]? | throw .indexOutOfRange
  return (cache, ⟨caches⟩)

def getCacheFromHeight (block : Nat) (useNative : Bool) (c : CacheSeed) :
    Except LookupError (QkcCache × CacheSeed) :=
  let epoch := block / epochLength
  let lenCaches := c.caches.length
  if h : epoch < lenCaches then .ok (c.caches[epoch], c)
  else extendCaches keccak256 keccak512 epoch lenCaches useNative c

/-- Lookups made one after another, each with its height and flag: the caches returned. -/
def getCachesFromHeights (c : CacheSeed) :
    List (Nat × Bool) → Except LookupError (List QkcCache × CacheSeed)
  | [] => .ok ([], c)
  | (block, useNative) :: calls => do
    let (cache, c) ← getCacheFromHeight keccak256 keccak512 block useNative c
    let (caches, c) ← getCachesFromHeights c calls
    return (cache :: caches, c)

/-- The caches of a reachable `cacheSeed`: at least one, and the `i`-th generated from the
`i`-th hash of the zero seed. -/
structure Seeded (caches : List QkcCache) : Prop where
  ne_nil : caches ≠ []
  generated : ∀ i (h : i < caches.length), ∃ useNative,
    generateCache keccak512 cacheEntryCnt (keccak256^[i] zeroSeed) useNative = .ok caches[i]

end Hashes

/-! ## Generated caches -/

section Generate

variable {keccak512 : List UInt8 → Vector UInt8 64}

theorem nodup_foldl_appendIfAbsent (ws : List Nat) {ls : List Nat} (h : ls.Nodup) :
    (ws.foldl appendIfAbsent ls).Nodup :=
  List.foldlRecOn ws appendIfAbsent h fun ls hls ele _ => by
    unfold appendIfAbsent
    split
    · exact hls
    · rename_i hmem
      exact hls.append (List.nodup_singleton ele) (List.disjoint_singleton.mpr hmem)

theorem length_foldl_appendIfAbsent_le (ws ls : List Nat) :
    (ws.foldl appendIfAbsent ls).length ≤ ls.length + ws.length := by
  induction ws generalizing ls with
  | nil => simp
  | cons w ws ih =>
    have hstep : (appendIfAbsent ls w).length ≤ ls.length + 1 := by
      unfold appendIfAbsent
      split <;> simp
    have hrest := ih (appendIfAbsent ls w)
    simp only [List.foldl_cons, List.length_cons]
    omega

theorem length_digestWords (bs : Vector UInt8 64) : (digestWords bs).length = 8 := by
  simp [digestWords]

theorem nodup_cacheWords (cnt : Nat) (seed : List UInt8) : (cacheWords keccak512 cnt seed).Nodup :=
  List.foldlRecOn _ _ List.nodup_nil fun _ hls _ _ => nodup_foldl_appendIfAbsent _ hls

/-- Each counter adds at most the eight words of its digest. -/
theorem length_cacheWords_le (cnt : Nat) (seed : List UInt8) :
    (cacheWords keccak512 cnt seed).length ≤ cnt := by
  have hstep : ∀ (is ls : List Nat), (is.foldl (fun ls i =>
      (digestWords (keccak512 (seed ++ BigEndian.fixed 4 i))).foldl appendIfAbsent ls) ls).length ≤
        ls.length + 8 * is.length := by
    intro is
    induction is with
    | nil => simp
    | cons i is ih =>
      intro ls
      have hword := length_foldl_appendIfAbsent_le (digestWords (keccak512 (seed ++ BigEndian.fixed 4 i))) ls
      have hrest := ih ((digestWords (keccak512 (seed ++ BigEndian.fixed 4 i))).foldl appendIfAbsent ls)
      rw [length_digestWords] at hword
      simp only [List.foldl_cons, List.length_cons]
      omega
  have hall := hstep (List.range (cnt / 8 % 2 ^ 32)) []
  have hmod := Nat.mod_le (cnt / 8) (2 ^ 32)
  simp only [List.length_nil, List.length_range, Nat.zero_add] at hall
  unfold cacheWords
  omega

theorem seed_of_generateCache {cnt : Nat} {seed : List UInt8} {native : Bool} {cache : QkcCache}
    (h : generateCache keccak512 cnt seed native = .ok cache) : cache.seed = seed := by
  cases native with
  | false =>
    cases h
    rfl
  | true =>
    obtain ⟨t, -, ht⟩ := Except.bind_eq_ok.mp h
    cases ht
    rfl

/-- The words a cache holds are strictly increasing: in the native case the slice is
empty, the words being in the tree. -/
theorem pairwise_ls_of_generateCache {cnt : Nat} {seed : List UInt8} {native : Bool}
    {cache : QkcCache} (h : generateCache keccak512 cnt seed native = .ok cache) :
    cache.ls.Pairwise (· < ·) := by
  cases native with
  | false =>
    cases h
    exact (nodup_cacheWords cnt seed).pairwise_lt_mergeSort
  | true =>
    obtain ⟨t, -, ht⟩ := Except.bind_eq_ok.mp h
    cases ht
    exact List.Pairwise.nil

/-- The native cache is the tree of the words of the Go cache; `cache_create` does not
crash on them, as there are no more than its arena holds. -/
theorem generateCache_native {cnt : Nat} (hcnt : cnt ≤ initSetEntries) (seed : List UInt8) :
    ∃ t, generateCache keccak512 cnt seed true = .ok ⟨[], some t, seed⟩ ∧
      t.root.keys = (cacheWords keccak512 cnt seed).mergeSort ∧ t.root.Valid ∧
      t.size = (cacheWords keccak512 cnt seed).length := by
  have hlen : (cacheWords keccak512 cnt seed).mergeSort.length ≤ initSetEntries := by
    rw [List.length_mergeSort]
    exact Nat.le_trans (length_cacheWords_le cnt seed) hcnt
  obtain ⟨t, hcreate, hkeys, hvalid, hsize⟩ :=
    cacheCreate_keys (nodup_cacheWords cnt seed).pairwise_lt_mergeSort hlen
  refine ⟨t, ?_, hkeys, hvalid, by rw [hsize, List.length_mergeSort]⟩
  show (do let nativeCache ← cacheCreate _; return _) = _
  rw [hcreate]
  rfl

variable (keccak512) in
theorem generateCache_ok {cnt : Nat} (hcnt : cnt ≤ initSetEntries) (seed : List UInt8) (native : Bool) :
    ∃ cache, generateCache keccak512 cnt seed native = .ok cache := by
  cases native with
  | false => exact ⟨_, rfl⟩
  | true =>
    obtain ⟨t, h, -⟩ := generateCache_native hcnt seed
    exact ⟨_, h⟩

end Generate

/-! ## Lookups one after another -/

theorem getElem?_eq_some_of_prefix {α : Type} {l₁ l₂ : List α} (h : l₁ <+: l₂) {i : Nat} {a : α}
    (ha : l₁[i]? = some a) : l₂[i]? = some a := by
  obtain ⟨hi, rfl⟩ := List.getElem?_eq_some_iff.mp ha
  rw [List.getElem?_eq_getElem (Nat.le_trans hi h.length_le), ← h.getElem hi]

section Sequential

variable {keccak256 : List UInt8 → List UInt8} {keccak512 : List UInt8 → Vector UInt8 64}

theorem cacheEntryCnt_le : cacheEntryCnt ≤ initSetEntries := by
  decide

theorem Seeded.snoc {caches : List QkcCache} {cache : QkcCache} {useNative : Bool}
    (hs : Seeded keccak256 keccak512 caches)
    (hgen : generateCache keccak512 cacheEntryCnt (keccak256^[caches.length] zeroSeed) useNative =
      .ok cache) :
    Seeded keccak256 keccak512 (caches ++ [cache]) where
  ne_nil := by simp
  generated i hi := by
    rw [List.length_append, List.length_singleton] at hi
    rcases Nat.lt_succ_iff_lt_or_eq.mp hi with hlt | rfl
    · rw [List.getElem_append_left hlt]
      exact hs.generated i hlt
    · exact ⟨useNative, by simpa using hgen⟩

/-- The last stored cache, whose seed the extension hashes on. -/
theorem Seeded.getLast? {caches : List QkcCache} (hs : Seeded keccak256 keccak512 caches) :
    ∃ last, caches.getLast? = some last ∧ last.seed = keccak256^[caches.length - 1] zeroSeed := by
  have hlen : caches.length - 1 < caches.length := by
    have := List.length_pos_iff.mpr hs.ne_nil
    omega
  obtain ⟨useNative, hgen⟩ := hs.generated _ hlen
  exact ⟨caches[caches.length - 1], by rw [List.getLast?_eq_getElem?, List.getElem?_eq_getElem hlen],
    seed_of_generateCache hgen⟩

/-- The loop under the lock appends `n` caches, each of the next seed. -/
theorem addCaches_extends (useNative : Bool) (n : Nat) :
    ∀ {seed : List UInt8} {caches : List QkcCache}, Seeded keccak256 keccak512 caches →
      seed = keccak256^[caches.length - 1] zeroSeed →
      ∃ caches', addCaches keccak256 keccak512 useNative n seed caches = .ok caches' ∧
        caches <+: caches' ∧ caches'.length = caches.length + n ∧
        Seeded keccak256 keccak512 caches' := by
  induction n with
  | zero =>
    intro seed caches hs _
    exact ⟨caches, rfl, List.prefix_refl _, rfl, hs⟩
  | succ n ih =>
    intro seed caches hs hseed
    have hpos : 0 < caches.length := List.length_pos_iff.mpr hs.ne_nil
    have hnext : keccak256 seed = keccak256^[caches.length] zeroSeed := by
      rw [hseed, ← Function.iterate_succ_apply' keccak256, Nat.succ_eq_add_one, Nat.sub_add_cancel hpos]
    obtain ⟨cache, hgen⟩ := generateCache_ok keccak512 cacheEntryCnt_le (keccak256 seed) useNative
    have hseed' : keccak256 seed = keccak256^[(caches ++ [cache]).length - 1] zeroSeed := by
      rw [List.length_append, List.length_singleton, Nat.add_sub_cancel, hnext]
    obtain ⟨caches', hadd, hpre, hlen, hs'⟩ := ih (hs.snoc (hnext ▸ hgen)) hseed'
    refine ⟨caches', ?_, (List.prefix_append caches [cache]).trans hpre, ?_, hs'⟩
    · simp only [addCaches, hgen, Except.ok_bind]
      exact hadd
    · rw [hlen, List.length_append, List.length_singleton]
      omega

/-- The locked part of a lookup, with a length read at any time before: the caches only
grew since, so at least `epoch - lenCaches + cacheAheadRound` more reach past `epoch`. -/
theorem extendCaches_extends {c : CacheSeed} {epoch lenCaches : Nat} (useNative : Bool)
    (hs : Seeded keccak256 keccak512 c.caches) (hstale : lenCaches ≤ c.caches.length)
    (hepoch : lenCaches ≤ epoch) :
    ∃ cache c', extendCaches keccak256 keccak512 epoch lenCaches useNative c = .ok (cache, c') ∧
      c.caches <+: c'.caches ∧ Seeded keccak256 keccak512 c'.caches ∧
      c'.caches[epoch]? = some cache := by
  obtain ⟨last, hlast, hseed⟩ := hs.getLast?
  obtain ⟨caches', hadd, hpre, hlen, hs'⟩ :=
    addCaches_extends useNative (epoch - lenCaches + cacheAheadRound) hs hseed
  have hlt : epoch < caches'.length := by
    rw [hlen, cacheAheadRound]
    omega
  refine ⟨caches'[epoch], ⟨caches'⟩, ?_, hpre, hs', List.getElem?_eq_getElem hlt⟩
  simp only [extendCaches, hlast, hadd, Except.mapError, Except.ok_bind, List.getElem?_eq_getElem hlt]
  rfl

theorem getCacheFromHeight_extends {c : CacheSeed} (hs : Seeded keccak256 keccak512 c.caches)
    (block : Nat) (useNative : Bool) :
    ∃ cache c', getCacheFromHeight keccak256 keccak512 block useNative c = .ok (cache, c') ∧
      c.caches <+: c'.caches ∧ Seeded keccak256 keccak512 c'.caches ∧
      c'.caches[block / epochLength]? = some cache := by
  by_cases h : block / epochLength < c.caches.length
  · refine ⟨_, c, ?_, List.prefix_refl _, hs, List.getElem?_eq_getElem h⟩
    rw [getCacheFromHeight, dif_pos h]
  · rw [getCacheFromHeight, dif_neg h]
    exact extendCaches_extends useNative hs (Nat.le_refl _) (by omega)

/-- A run of lookups keeps the caches seeded and only appends to them, and each lookup
returned the cache that the final state holds at its epoch. -/
theorem getCachesFromHeights_extends (calls : List (Nat × Bool)) :
    ∀ {c : CacheSeed}, Seeded keccak256 keccak512 c.caches →
      ∃ caches c', getCachesFromHeights keccak256 keccak512 c calls = .ok (caches, c') ∧
        c.caches <+: c'.caches ∧ Seeded keccak256 keccak512 c'.caches ∧
        caches.map some = calls.map fun call => c'.caches[call.1 / epochLength]? := by
  induction calls with
  | nil =>
    intro c hs
    exact ⟨[], c, rfl, List.prefix_refl _, hs, rfl⟩
  | cons call calls ih =>
    intro c hs
    obtain ⟨block, useNative⟩ := call
    obtain ⟨cache, c1, hstep, hpre1, hs1, hget1⟩ := getCacheFromHeight_extends hs block useNative
    obtain ⟨caches, c', hrun, hpre2, hs', hmap⟩ := ih hs1
    refine ⟨cache :: caches, c', ?_, hpre1.trans hpre2, hs', ?_⟩
    · simp only [getCachesFromHeights, hstep, hrun, Except.ok_bind]
      rfl
    · rw [List.map_cons, List.map_cons, hmap, getElem?_eq_some_of_prefix hpre2 hget1]

variable (keccak256) in
theorem newcacheSeed_seeded (useNative : Bool) :
    ∃ c, newcacheSeed keccak512 useNative = .ok c ∧ Seeded keccak256 keccak512 c.caches := by
  obtain ⟨cache, hgen⟩ := generateCache_ok keccak512 cacheEntryCnt_le zeroSeed useNative
  refine ⟨⟨[cache]⟩, by simp only [newcacheSeed, hgen, Except.ok_bind]; rfl, List.cons_ne_nil _ _, ?_⟩
  intro i hi
  have hi0 : i = 0 := by simpa using hi
  subst hi0
  exact ⟨useNative, hgen⟩

end Sequential

theorem cacheSeed_caches_follow_keccak_chain (keccak256 : List UInt8 → List UInt8)
    (keccak512 : List UInt8 → Vector UInt8 64) (useNative : Bool) (calls : List (Nat × Bool)) :
    ∃ c0 caches c, newcacheSeed keccak512 useNative = .ok c0 ∧
      getCachesFromHeights keccak256 keccak512 c0 calls = .ok (caches, c) ∧
      (∀ i (h : i < c.caches.length), c.caches[i].seed = keccak256^[i] zeroSeed ∧
        ∃ native, generateCache keccak512 cacheEntryCnt c.caches[i].seed native = .ok c.caches[i]) ∧
      caches.map some = calls.map (fun call => c.caches[call.1 / epochLength]?) ∧
      ∀ cnt seed native cache, generateCache keccak512 cnt seed native = .ok cache →
        cache.ls.Pairwise (· < ·) ∧ cache.ls.Nodup := by
  obtain ⟨c0, hnew, hs0⟩ := newcacheSeed_seeded keccak256 useNative
  obtain ⟨caches, c, hrun, -, hs, hmap⟩ := getCachesFromHeights_extends calls hs0
  refine ⟨c0, caches, c, hnew, hrun, ?_, hmap, ?_⟩
  · intro i hi
    obtain ⟨native, hgen⟩ := hs.generated i hi
    have hseed := seed_of_generateCache hgen
    refine ⟨hseed, native, ?_⟩
    rw [hseed]
    exact hgen
  · intro cnt seed native cache hgen
    have hsorted := pairwise_ls_of_generateCache hgen
    exact ⟨hsorted, hsorted.imp Nat.ne_of_lt⟩

/-- The lookups of `TestGetSeedFromBlockNumber` at the last block of epoch 31 and the first
of epoch 32, with a hash that adds one to every byte in place of Keccak-256. -/
theorem cacheSeed_seeds_at_test_heights :
    ∃ c0 caches c, newcacheSeed (fun _ => Vector.replicate 64 0) true = .ok c0 ∧
      getCachesFromHeights (fun s => s.map (· + 1)) (fun _ => Vector.replicate 64 0) c0
        [(959999, true), (960000, true)] = .ok (caches, c) ∧
      caches.map QkcCache.seed = [List.replicate 32 31, List.replicate 32 32] := by
  obtain ⟨c0, caches, c, hnew, hrun, hseeds, hmap, -⟩ :=
    cacheSeed_caches_follow_keccak_chain (fun s => s.map (· + 1)) (fun _ => Vector.replicate 64 0)
      true [(959999, true), (960000, true)]
  refine ⟨c0, caches, c, hnew, hrun, ?_⟩
  have h31 : (959999 : Nat) / epochLength = 31 := by decide
  have h32 : (960000 : Nat) / epochLength = 32 := by decide
  rcases caches with _ | ⟨a, _ | ⟨b, _ | ⟨d, rest⟩⟩⟩ <;>
    simp only [List.map_cons, List.map_nil, List.cons.injEq, reduceCtorEq, and_false, and_true,
      h31, h32] at hmap
  obtain ⟨ha, hb⟩ := hmap
  obtain ⟨hi31, rfl⟩ := List.getElem?_eq_some_iff.mp ha.symm
  obtain ⟨hi32, rfl⟩ := List.getElem?_eq_some_iff.mp hb.symm
  rw [List.map_cons, List.map_cons, List.map_nil, (hseeds 31 hi31).1, (hseeds 32 hi32).1]
  decide

end Qkchash
