import GoQuarkChain.Core.MinorBlockChain
import GoQuarkChain.Lib.TopSearch

/-!
# Finding the common ancestor before a sync

A sync task catches the local chain up with a peer. It first looks for the newest
header the two chains share: `findAncestor` of the root chain task and of a shard's
task. Both search the heights from `maxSyncStaleness` below the local tip up to the
lower of the local tip and the peer's header. A round asks the peer for about 500
(root) or 100 (shard) headers spread over `[start, end]` and scans them from the
highest down: a header the local chain lacks lowers `end` below it; one it has is
returned when it is at `end`, and otherwise raises `start` above it and ends the round.
Heights are `uint32` on the root chain and `uint64` on a shard, here `BitVec 32` and
`BitVec 64`. The two tasks share one loop, `lookup`, whose parameters are what they
differ in: the width, the list limit, how many headers a round asks for, the order
check of the scan and the download with its checks.

The peer is any function from requests to answers. Whatever it answers, the loop stops
after finitely many rounds, each one request, and returns an error, nothing, or a header
the local chain has (`RootChainTask.findAncestor_returns`,
`MinorChainTask.findAncestor_returns`). The bound comes from `measure`. A miss at height
`0` sets `end` to `0 - 1`, which wraps to the largest height, so a range that starts at
`0` weighs more than any other; from the wrapped range the next round asks for no
headers, which no answer passes.

That wrap is also where the search departs from its purpose: when the range starts at
`0` and the local chain has no header of the peer's chain in it, the search fails
instead of returning nothing (`findAncestor_unknown_genesis_fails`).

Of `BlockSychronizerStats` only the count of requests matters here, and it is the
number of rounds; the other counters and the shard's branch in the request are left out.
-/

namespace Cluster

namespace Sync

open Core

/-- The fields of a header the search reads: its hash and its height, a `w`-bit word. -/
class SyncHeader (w : outParam Nat) (η : Type) where
  hash : η → Hash
  number : η → BitVec w

open SyncHeader

/-- The fields of `types.RootBlockHeader` the root task reads; `Number` is a `uint32`. -/
structure RootHeader where
  hash : Hash
  number : BitVec 32
  parentHash : Hash
  difficulty : Nat
  totalDifficulty : Nat
deriving DecidableEq

instance : SyncHeader 32 RootHeader := ⟨RootHeader.hash, RootHeader.number⟩

/-- The fields of `types.MinorBlockHeader` the shard task reads; `Number` is a `uint64`. -/
structure MinorHeader where
  hash : Hash
  number : BitVec 64
deriving DecidableEq

instance : SyncHeader 64 MinorHeader := ⟨MinorHeader.hash, MinorHeader.number⟩

/-- What the search reads of the local chain: `CurrentHeader` and `HasBlock`. A chain
has its own tip. -/
structure Blockchain {w : Nat} (η : Type) [SyncHeader w η] where
  currentHeader : η
  hasBlock : Hash → Bool
  hasBlock_currentHeader : hasBlock (hash currentHeader) = true

/-- A `Get...BlockHeaderListWithSkipRequest` by height toward the tip: the headers at
`height`, `height + skip + 1`, ..., at most `limit` of them. -/
structure HeaderListRequest (w : Nat) where
  height : BitVec w
  skip : BitVec 32
  limit : BitVec 32
deriving DecidableEq

/-- Where a round's scan leaves the search: a header to return, or the next bounds. -/
inductive Round (w : Nat) (η : Type) where
  | found (header : η)
  | next (start stop : BitVec w) (best : Option η)

/-- What the two tasks' searches differ in, and what the shared loop relies on of it:
the width is positive; a header above the one scanned before it is out of order; the
range of every height asks for no headers; and a download returns some headers, no
more than asked for, or an error of its own. `σ` is what a download updates of the
task. -/
structure Search (w : Nat) (η σ : Type) [SyncHeader w η] where
  kind : String
  listLimit : BitVec w
  limit : BitVec w → BitVec w → BitVec w → BitVec w
  outOfOrder : BitVec w → BitVec w → Bool
  download : σ → BitVec w → BitVec w → BitVec w → Except Failure (List η × σ)
  width_pos : 0 < w
  outOfOrder_of_lt : ∀ {a b : BitVec w}, b < a → outOfOrder a b = true
  limit_allOnes : ∀ span, limit 0 (BitVec.allOnes w) span = 0
  download_ok : ∀ {t start skip limit l t'}, download t start skip limit = .ok (l, t') →
    l ≠ [] ∧ l.length ≤ limit.toNat
  download_error : ∀ {t start skip limit f}, download t start skip limit = .error f →
    ∃ msg, f = .error msg

section Loop

variable {w : Nat} {η σ : Type} [SyncHeader w η]

/-- The inner loop of `findAncestor`, over the round's headers from the last one down. -/
def scan (hasBlock : Hash → Bool) (outOfOrder : BitVec w → BitVec w → Bool) (kind : String) :
    List η → Option η → BitVec w → BitVec w → Option η → Except Failure (Round w η)
  | [], _, start, stop, best => .ok (.next start stop best)
  | rh :: rest, preHeader, start, stop, best =>
    if number rh < start ∨ number rh > stop then
      .error (.error s!"Bad peer returning {kind} block height out of range ")
    else if preHeader.any fun p => outOfOrder (number rh) (number p) then
      .error (.error s!"Bad peer returning {kind} block height must be ordered ")
    else if !hasBlock (hash rh) then
      scan hasBlock outOfOrder kind rest (some rh) start (number rh - 1) best
    else if number rh = stop then .ok (.found rh)
    else if number rh + 1 > stop then
      .error (.error s!"Bad order start and end to download {kind} blocks ")
    else .ok (.next (number rh + 1) stop (some rh))

/-- The loop of `findAncestor`, `for end >= start`, with `fuel` rounds at most. A round
asks for the headers at `start`, `start + span`, ... and scans them. -/
def lookup (S : Search w η σ) (hasBlock : Hash → Bool) :
    Nat → σ → BitVec w → BitVec w → Option η → Except Failure (Option η × σ)
  | 0, _, _, _, _ => .error .outOfFuel
  | fuel + 1, t, start, stop, best =>
    if start ≤ stop then
      let span := (stop - start) / S.listLimit + 1
      match S.download t start (span - 1) (S.limit start stop span) with
      | .error err => .error err
      | .ok (blocklist, t) =>
        match scan hasBlock S.outOfOrder S.kind blocklist.reverse none start stop best with
        | .error err => .error err
        | .ok (.found rh) => .ok (some rh, t)
        | .ok (.next start stop best) => lookup S hasBlock fuel t start stop best
    else .ok (best, t)

/-- What bounds the rounds left: the width of `[start, end]`, with the ranges that start at
height `0` above all others, as a miss at `0` wraps `end` to the largest height. -/
def measure (start stop : BitVec w) : Nat :=
  if stop.toNat < start.toNat then 0
  else if start.toNat = 0 then
    if stop.toNat = 2 ^ w - 1 then 2 ^ w + 1 else 2 ^ w + 2 + stop.toNat
  else stop.toNat - start.toNat + 2

/-- The best header so far is one the chain has. -/
def Known (hasBlock : Hash → Bool) (best : Option η) : Prop :=
  ∀ rh, best = some rh → hasBlock (hash rh) = true

/-- A round ends on a header the chain has, or with a best header the chain has. -/
def Round.Known (hasBlock : Hash → Bool) : Round w η → Prop
  | .found rh => hasBlock (hash rh) = true
  | .next _ _ best => Sync.Known hasBlock best

end Loop

/-! ## Heights as `w`-bit words -/

section Words

variable {w : Nat} {a b : BitVec w}

theorem toNat_sub_one (hw : 0 < w) (a : BitVec w) :
    (a - 1).toNat = if a.toNat = 0 then 2 ^ w - 1 else a.toNat - 1 := by
  have hone : (1 : BitVec w).toNat = 1 := BitVec.toNat_one hw
  have hlt := a.isLt
  rw [BitVec.toNat_sub, hone]
  split_ifs with h
  · rw [h, Nat.add_zero, Nat.mod_eq_of_lt (by omega)]
  · rw [show 2 ^ w - 1 + a.toNat = (a.toNat - 1) + 2 ^ w by omega, Nat.add_mod_right,
      Nat.mod_eq_of_lt (by omega)]

/-- `if newLimit > limit { newLimit = limit }`. -/
theorem toNat_clamp_le (n limit : BitVec w) : (if n > limit then limit else n).toNat ≤ limit.toNat := by
  split_ifs with h
  · exact Nat.le_refl _
  · exact BitVec.le_def.mp (BitVec.not_lt.mp h)

theorem toNat_add_one_of_lt (hw : 0 < w) (h : a < b) : (a + 1).toNat = a.toNat + 1 := by
  have hb := b.isLt
  have hone : (1 : BitVec w).toNat = 1 := BitVec.toNat_one hw
  rw [BitVec.lt_def] at h
  rw [BitVec.toNat_add_of_lt] <;> rw [hone]
  omega

/-- `start := end - maxSyncStaleness`, and `0` when `end` is below it. -/
theorem toNat_start (stop stale : BitVec w) :
    (if stop < stale then 0 else stop - stale).toNat = stop.toNat - stale.toNat := by
  split_ifs with h
  · rw [BitVec.lt_def] at h
    change 0 = _
    omega
  · rw [BitVec.toNat_sub_of_le (BitVec.not_lt.mp h)]

/-- `if header.Number < end { end = header.Number }`. -/
theorem toNat_min (a b : BitVec w) : (if a < b then a else b).toNat = min a.toNat b.toNat := by
  split_ifs with h
  · rw [BitVec.lt_def] at h
    omega
  · rw [BitVec.lt_def] at h
    omega

/-- A request that the answer's count reaches asks for exactly what it gets. -/
theorem clamp_of_le {n limit : BitVec w} (h : limit.toNat ≤ n.toNat) :
    (if n > limit then limit else n) = limit := by
  split_ifs with hgt
  · rfl
  · rw [gt_iff_lt, BitVec.lt_def] at hgt
    exact BitVec.eq_of_toNat_eq (by omega)

/-- The span of a round, `(end - start) / listLimit + 1`, with a list limit above `1`. -/
theorem toNat_span (hw : 0 < w) {start stop L : BitVec w} (hle : start ≤ stop) (hL : 1 < L.toNat) :
    ((stop - start) / L + 1).toNat = (stop.toNat - start.toNat) / L.toNat + 1 := by
  have hstop := stop.isLt
  have hdiv : (stop.toNat - start.toNat) / L.toNat ≤ (stop.toNat - start.toNat) / 2 :=
    Nat.div_le_div_left hL (by decide)
  have hone : (1 : BitVec w).toNat = 1 := BitVec.toNat_one hw
  rw [BitVec.toNat_add_of_lt] <;> rw [BitVec.toNat_udiv, BitVec.toNat_sub_of_le hle, hone]
  omega

theorem toNat_span_sub_one (hw : 0 < w) {start stop L : BitVec w} (hle : start ≤ stop)
    (hL : 1 < L.toNat) :
    ((stop - start) / L + 1 - 1).toNat = (stop.toNat - start.toNat) / L.toNat := by
  rw [toNat_sub_one hw, toNat_span hw hle hL]
  simp

/-- `x + 1 - start` over heights with room above them. -/
theorem toNat_add_one_sub (x start : BitVec w) (hw : 0 < w) (hle : start.toNat ≤ x.toNat + 1)
    (hx : x.toNat + 1 < 2 ^ w) : (x + 1 - start).toNat = x.toNat + 1 - start.toNat := by
  have hone : (1 : BitVec w).toNat = 1 := BitVec.toNat_one hw
  have hadd : (x + 1).toNat = x.toNat + 1 := by
    rw [BitVec.toNat_add_of_lt] <;> rw [hone]
    exact hx
  rw [BitVec.toNat_sub_of_le (by rw [BitVec.le_def, hadd]; exact hle), hadd]

/-- The count a download expects, `(top + 1 - start + skip) / (skip + 1)`, over heights
below `2 ^ (w - 1)`. -/
theorem toNat_newLimit (top : BitVec w) (hw : 0 < w) {start stop L : BitVec w} (hle : start ≤ stop)
    (hL : 1 < L.toNat) (htop : stop.toNat ≤ top.toNat) (hsmall : 2 * top.toNat + 1 < 2 ^ w) :
    ((top + 1 - start + ((stop - start) / L + 1 - 1)) / ((stop - start) / L + 1 - 1 + 1)).toNat =
      (top.toNat + 1 - start.toNat + (stop.toNat - start.toNat) / L.toNat) /
        ((stop.toNat - start.toNat) / L.toNat + 1) := by
  have hs := BitVec.le_def.mp hle
  have hdiv : (stop.toNat - start.toNat) / L.toNat ≤ stop.toNat - start.toNat := Nat.div_le_self _ _
  have hsub := toNat_add_one_sub top start hw (by omega) (by omega)
  rw [BitVec.sub_add_cancel, BitVec.toNat_udiv, toNat_span hw hle hL,
    BitVec.toNat_add_of_lt (by rw [hsub, toNat_span_sub_one hw hle hL]; omega), hsub,
    toNat_span_sub_one hw hle hL]

end Words

/-- The last of `n` heights `span` apart from `start` is at most `end`, when `n` spans
fall short of `end - start + 1 + span`. -/
theorem last_sample_le {start stop n span : Nat} (hle : start ≤ stop) (hn : 0 < n)
    (hmul : n * span < stop - start + 1 + span) : start + (n - 1) * span ≤ stop := by
  have : (n - 1) * span + span = n * span := by
    rw [Nat.sub_mul, Nat.one_mul]
    have : span ≤ n * span := Nat.le_mul_of_pos_left span hn
    omega
  omega

/-! ## A round, and the loop over the rounds -/

section Scan

variable {w : Nat} {η σ : Type} [SyncHeader w η] {hasBlock : Hash → Bool}
  {outOfOrder : BitVec w → BitVec w → Bool} {kind : String}

/-- What one header of a scan can do: it must lie in `[start, end]` and keep the order;
then it is a miss, which lowers `end` below it, the header at `end`, which is returned,
or a header the chain has below `end`, which ends the round above it. -/
theorem scan_cons_eq_ok {rh : η} {rest : List η} {pre : Option η} {start stop : BitVec w}
    {best : Option η} {r : Round w η}
    (h : scan hasBlock outOfOrder kind (rh :: rest) pre start stop best = .ok r) :
    start ≤ number rh ∧ number rh ≤ stop ∧
      (pre.any fun p => outOfOrder (number rh) (number p)) = false ∧
      (hasBlock (hash rh) = false ∧
          scan hasBlock outOfOrder kind rest (some rh) start (number rh - 1) best = .ok r ∨
        hasBlock (hash rh) = true ∧ number rh = stop ∧ r = .found rh ∨
        hasBlock (hash rh) = true ∧ number rh < stop ∧ r = .next (number rh + 1) stop (some rh)) := by
  simp only [scan] at h
  split_ifs at h with hrange horder hmiss hend hbad
  · rw [not_or, BitVec.not_lt, BitVec.not_lt] at hrange
    refine ⟨hrange.1, hrange.2, by simpa using horder, .inl ⟨by simpa using hmiss, h⟩⟩
  · rw [not_or, BitVec.not_lt, BitVec.not_lt] at hrange
    cases h
    refine ⟨hrange.1, hrange.2, by simpa using horder, .inr (.inl ⟨by simpa using hmiss, hend, rfl⟩)⟩
  · rw [not_or, BitVec.not_lt, BitVec.not_lt] at hrange
    cases h
    have hlt : number rh < stop := by
      rw [BitVec.lt_def]
      have := BitVec.le_def.mp hrange.2
      have : number rh ≠ stop := hend
      have : (number rh).toNat ≠ stop.toNat := fun h => hend (BitVec.eq_of_toNat_eq h)
      omega
    refine ⟨hrange.1, hrange.2, by simpa using horder, .inr (.inr ⟨by simpa using hmiss, hlt, rfl⟩)⟩

/-- Every error of a scan is one of its own three. -/
theorem scan_error {l : List η} {pre : Option η} {start stop : BitVec w} {best : Option η}
    {f : Failure} (h : scan hasBlock outOfOrder kind l pre start stop best = .error f) :
    ∃ msg, f = .error msg := by
  induction l generalizing pre stop with
  | nil => cases h
  | cons rh rest ih =>
    simp only [scan] at h
    split_ifs at h
    all_goals first
      | (cases h; exact ⟨_, rfl⟩)
      | exact ih h

/-- A scan ends on a header the chain has, or with a best header the chain has. -/
theorem scan_known {l : List η} {pre : Option η} {start stop : BitVec w} {best : Option η}
    {r : Round w η} (hb : Known hasBlock best)
    (h : scan hasBlock outOfOrder kind l pre start stop best = .ok r) : r.Known hasBlock := by
  induction l generalizing pre stop with
  | nil =>
    cases h
    exact hb
  | cons rh rest ih =>
    obtain ⟨-, -, -, ⟨-, hrest⟩ | ⟨hhas, -, rfl⟩ | ⟨hhas, -, rfl⟩⟩ := scan_cons_eq_ok h
    · exact ih hrest
    · exact hhas
    · rintro _ ⟨⟩
      exact hhas

end Scan

/-! ## The measure over a round -/

section Measure

variable {w : Nat}

/-- The range of every height, the one a miss at `0` wraps to. -/
def Full (start stop : BitVec w) : Prop := start.toNat = 0 ∧ stop.toNat = 2 ^ w - 1

variable {start stop h : BitVec w}

/-- A miss inside a range other than the full one lowers the measure. -/
theorem measure_miss_lt (hw : 0 < w) (hfull : ¬Full start stop) (hs : start ≤ h) (he : h ≤ stop) :
    measure start (h - 1) < measure start stop := by
  have hsub := toNat_sub_one hw h
  have hlt := stop.isLt
  rw [BitVec.le_def] at hs he
  unfold Full at hfull
  unfold measure
  split_ifs at hsub ⊢ <;> omega

/-- A miss at `0` in the full range leaves it full. -/
theorem measure_miss_zero (hw : 0 < w) (hfull : Full start stop) (h0 : h.toNat = 0) :
    measure start (h - 1) = measure start stop := by
  have hsub := toNat_sub_one hw h
  unfold Full at hfull
  unfold measure
  split_ifs at hsub ⊢ <;> omega

theorem measure_le (start stop : BitVec w) : measure start stop ≤ 2 ^ (w + 1) := by
  have hstop := stop.isLt
  have hpow : 2 ^ (w + 1) = 2 * 2 ^ w := by rw [Nat.pow_succ, Nat.mul_comm]
  have hone := Nat.one_le_two_pow (n := w)
  unfold measure
  split_ifs <;> omega

/-- A header the chain has below `end` ends the round with a smaller range. -/
theorem measure_hit_lt (hw : 0 < w) (hs : start ≤ h) (he : h < stop) :
    measure (h + 1) stop < measure start stop := by
  have hadd := toNat_add_one_of_lt hw he
  have hlt := stop.isLt
  rw [BitVec.le_def] at hs
  rw [BitVec.lt_def] at he
  unfold measure
  split_ifs <;> omega

end Measure

/-! ## The measure never grows in a scan, and drops in a round -/

section ScanMeasure

variable {w : Nat} {η σ : Type} [SyncHeader w η] {hasBlock : Hash → Bool}
  {outOfOrder : BitVec w → BitVec w → Bool} {kind : String}

/-- Once the range is full, the header scanned before is at height `0`: a miss at `0` is
the only way into the full range. -/
theorem scan_measure_le (hw : 0 < w) (hord : ∀ {a b : BitVec w}, b < a → outOfOrder a b = true)
    {l : List η} {pre : Option η} {start stop start' stop' : BitVec w} {best best' : Option η}
    (hfull : Full start stop → ∃ p, pre = some p ∧ (number p).toNat = 0)
    (h : scan hasBlock outOfOrder kind l pre start stop best = .ok (.next start' stop' best')) :
    measure start' stop' ≤ measure start stop := by
  induction l generalizing pre stop with
  | nil =>
    cases h
    exact Nat.le_refl _
  | cons rh rest ih =>
    obtain ⟨hs, he, horder, ⟨-, hrest⟩ | ⟨-, -, hr⟩ | ⟨-, hlt, hr⟩⟩ := scan_cons_eq_ok h
    · -- a miss: `end` drops below the header, wrapping only at height `0`
      have hnext : Full start (number rh - 1) → ∃ p, some rh = some p ∧ (number p).toNat = 0 := by
        intro hf
        have hsub := toNat_sub_one hw (number rh)
        have := (number rh).isLt
        unfold Full at hf
        split_ifs at hsub with h0
        · exact ⟨rh, rfl, h0⟩
        · omega
      refine Nat.le_trans (ih hnext hrest) ?_
      by_cases hf : Full start stop
      · -- in the full range the order check keeps the header at `0`
        obtain ⟨p, rfl, hp⟩ := hfull hf
        have h0 : (number rh).toNat = 0 := by
          by_contra hne
          have hgt : number p < number rh := by
            rw [BitVec.lt_def]
            omega
          simp [hord hgt] at horder
        exact Nat.le_of_eq (measure_miss_zero hw hf h0)
      · exact Nat.le_of_lt (measure_miss_lt hw hf hs he)
    · cases hr
    · cases hr
      exact Nat.le_of_lt (measure_hit_lt hw hs hlt)

/-- A round from a range other than the full one, over at least one header, ends with a
smaller measure. -/
theorem scan_measure_lt (hw : 0 < w) (hord : ∀ {a b : BitVec w}, b < a → outOfOrder a b = true)
    {l : List η} {start stop start' stop' : BitVec w} {best best' : Option η}
    (hfull : ¬Full start stop) (hl : l ≠ [])
    (h : scan hasBlock outOfOrder kind l none start stop best = .ok (.next start' stop' best')) :
    measure start' stop' < measure start stop := by
  cases l with
  | nil => exact absurd rfl hl
  | cons rh rest =>
    obtain ⟨hs, he, -, ⟨-, hrest⟩ | ⟨-, -, hr⟩ | ⟨-, hlt, hr⟩⟩ := scan_cons_eq_ok h
    · have hnext : Full start (number rh - 1) → ∃ p, some rh = some p ∧ (number p).toNat = 0 := by
        intro hf
        have hsub := toNat_sub_one hw (number rh)
        have := (number rh).isLt
        unfold Full at hf
        split_ifs at hsub with h0
        · exact ⟨rh, rfl, h0⟩
        · omega
      exact Nat.lt_of_le_of_lt (scan_measure_le hw hord hnext hrest) (measure_miss_lt hw hfull hs he)
    · cases hr
    · cases hr
      exact measure_hit_lt hw hs hlt

end ScanMeasure

section Lookup

variable {w : Nat} {η σ : Type} [SyncHeader w η] (S : Search w η σ)

/-- The full range asks for no headers, and no answer passes that. -/
theorem download_full {t : σ} {start stop span : BitVec w} {l : List η} {t' : σ}
    (hfull : Full start stop) (h : S.download t start (span - 1) (S.limit start stop span) = .ok (l, t')) :
    False := by
  have hstart : start = 0 := BitVec.eq_of_toNat_eq (by simpa using hfull.1)
  have hstop : stop = BitVec.allOnes w := BitVec.eq_of_toNat_eq (by simpa using hfull.2)
  obtain ⟨hne, hlen⟩ := S.download_ok h
  rw [hstart, hstop, S.limit_allOnes] at hlen
  exact hne (List.eq_nil_of_length_eq_zero (by simpa using hlen))

/-- Whatever the peer answers, the loop ends within `measure start stop` rounds after the
first, with one of its errors or with a header the chain has, if any. -/
theorem lookup_returns (hasBlock : Hash → Bool) :
    ∀ (fuel : Nat) (t : σ) (start stop : BitVec w) (best : Option η),
      measure start stop < fuel → Known hasBlock best →
      (∃ msg, lookup S hasBlock fuel t start stop best = .error (.error msg)) ∨
      ∃ r t', lookup S hasBlock fuel t start stop best = .ok (r, t') ∧ Known hasBlock r := by
  intro fuel
  induction fuel with
  | zero => intro _ _ _ _ hfuel; omega
  | succ fuel ih =>
    intro t start stop best hfuel hbest
    simp only [lookup]
    split_ifs with hle
    · generalize hspan : (stop - start) / S.listLimit + 1 = span
      cases hdl : S.download t start (span - 1) (S.limit start stop span) with
      | error err =>
        obtain ⟨msg, rfl⟩ := S.download_error hdl
        exact .inl ⟨msg, rfl⟩
      | ok res =>
        obtain ⟨blocklist, t₁⟩ := res
        dsimp only
        have hfull : ¬Full start stop := fun hf => download_full S hf hdl
        have hne : blocklist.reverse ≠ [] := by simpa using (S.download_ok hdl).1
        cases hsc : scan hasBlock S.outOfOrder S.kind blocklist.reverse none start stop best with
        | error err =>
          obtain ⟨msg, rfl⟩ := scan_error hsc
          dsimp only
          exact .inl ⟨msg, rfl⟩
        | ok round =>
          have hknown := scan_known hbest hsc
          cases round with
          | found rh =>
            dsimp only
            exact .inr ⟨some rh, t₁, rfl, by rintro _ ⟨⟩; exact hknown⟩
          | next start' stop' best' =>
            have hlt := scan_measure_lt S.width_pos S.outOfOrder_of_lt hfull hne hsc
            dsimp only
            exact ih t₁ start' stop' best' (by omega) hknown
    · exact .inr ⟨best, t, rfl, hbest⟩

end Lookup

/-! ## Against a peer that answers from a chain

A peer answers honestly from a chain `chain` (its header at each height) when a round gets
the chain's headers at the heights it asks for. If the local chain has the chain's headers
up to some height and none above it, the search keeps a `Bracket` of the heights it has
not ruled out (`scan_honest`), and ends on the greatest height of its range that the
local chain has (`lookup_honest`), as long as no miss at `0` wraps `end`. -/

section Honest

variable {w : Nat} {η σ : Type} [SyncHeader w η]

open TopSearch

/-- The local chain has the header of `chain` at height `h`. -/
def Has (hasBlock : Hash → Bool) (chain : Nat → η) (h : Nat) : Prop :=
  hasBlock (hash (chain h)) = true

/-- A round over the chain's headers ends on the top of what the local chain has of
`[lo, hi]`, or with a bracket of it that no miss at `0` wrapped. -/
def Round.Honest (hasBlock : Hash → Bool) (chain : Nat → η) (lo hi : Nat) : Round w η → Prop
  | .found rh => ∃ k, rh = chain k ∧ IsTop (Has hasBlock chain) lo hi (some k)
  | .next start stop best => ∃ b, best = b.map chain ∧
      Bracket (Has hasBlock chain) lo hi start.toNat (stop.toNat + 1) b ∧
      (start.toNat = 0 → Has hasBlock chain 0)

variable {hasBlock : Hash → Bool} {outOfOrder : BitVec w → BitVec w → Bool} {kind : String}
  {chain : Nat → η} {lo hi : Nat}

/-- A scan of the chain's headers at decreasing heights inside the bracket: each miss
lowers `end` below it, each header the local chain has is the top or ends the round. -/
theorem scan_honest (hw : 0 < w) (hord : ∀ {a b : BitVec w}, a < b → outOfOrder a b = false)
    (hnum : ∀ h ≤ hi, (number (chain h)).toNat = h) (hdown : DownClosed (Has hasBlock chain) hi) :
    ∀ (hs : List Nat) (pre : Option η) (start stop : BitVec w) (best : Option Nat),
      hs.Pairwise (· > ·) → (∀ h ∈ hs, start.toNat ≤ h ∧ h ≤ stop.toNat) →
      (∀ p, pre = some p → ∀ h ∈ hs, h < (number p).toNat) →
      Bracket (Has hasBlock chain) lo hi start.toNat (stop.toNat + 1) best →
      (start.toNat = 0 → Has hasBlock chain 0) →
      ∃ r, scan hasBlock outOfOrder kind (hs.map chain) pre start stop (best.map chain) = .ok r ∧
        r.Honest hasBlock chain lo hi := by
  intro hs
  induction hs with
  | nil =>
    intro pre start stop best _ _ _ hb hz
    exact ⟨_, rfl, best, rfl, hb, hz⟩
  | cons h rest ih =>
    intro pre start stop best hsorted hbounds hpre hb hz
    obtain ⟨hsh, hhs⟩ := hbounds h List.mem_cons_self
    have hstop := hb.top_le
    have hnh : (number (chain h)).toNat = h := hnum h (by omega)
    -- the header passes the range and the order checks
    have hrange : ¬(number (chain h) < start ∨ number (chain h) > stop) := by
      rw [gt_iff_lt, BitVec.lt_def, BitVec.lt_def, hnh]
      omega
    have horder : (pre.any fun p => outOfOrder (number (chain h)) (number p)) = false := by
      cases pre with
      | none => rfl
      | some p =>
        have hlt : number (chain h) < number p := by
          rw [BitVec.lt_def, hnh]
          exact hpre p rfl h List.mem_cons_self
        simp [hord hlt]
    rw [List.map_cons, scan, if_neg hrange, if_neg (by rw [horder]; decide)]
    by_cases hhas : Has hasBlock chain h
    · have hnot : ¬(!hasBlock (hash (chain h))) = true := by simpa [Has] using hhas
      rw [if_neg hnot]
      by_cases hend : number (chain h) = stop
      · -- the header at `end` is the top
        rw [if_pos hend]
        have htop : stop.toNat + 1 - 1 = h := by rw [← hend, hnh]; omega
        refine ⟨_, rfl, h, rfl, ?_⟩
        rw [← htop]
        exact hb.isTop_last (by omega) (by rwa [htop])
      · -- a header below `end`: the round ends above it
        have hne : h ≠ stop.toNat := fun he => hend (BitVec.eq_of_toNat_eq (by rw [hnh, he]))
        have hlt : number (chain h) < stop := by
          rw [BitVec.lt_def, hnh]
          omega
        have hadd := toNat_add_one_of_lt hw hlt
        rw [if_neg hend, if_neg (by rw [gt_iff_lt, BitVec.lt_def, hadd, hnh]; omega)]
        refine ⟨_, rfl, some h, rfl, ?_, fun h0 => by omega⟩
        rw [hadd, hnh]
        exact hb.hit hsh (by omega) hhas
    · -- a miss: `end` drops below it, and no miss is at `0`
      have hpos : h ≠ 0 := by
        rintro rfl
        exact hhas (hz (by omega))
      have hsub : (number (chain h) - 1).toNat = h - 1 := by
        rw [toNat_sub_one hw, hnh, if_neg hpos]
      have hmiss : (!hasBlock (hash (chain h))) = true := by simpa [Has] using hhas
      rw [if_pos hmiss]
      obtain ⟨hgt, hsorted'⟩ := List.pairwise_cons.mp hsorted
      apply ih (some (chain h)) start _ best hsorted'
      · intro h' hh'
        have := hgt h' hh'
        have := (hbounds h' (List.mem_cons_of_mem _ hh')).1
        rw [hsub]
        omega
      · rintro p ⟨⟩ h' hh'
        rw [hnh]
        exact hgt h' hh'
      · rw [hsub, show h - 1 + 1 = h by omega]
        exact hb.miss hdown hsh (by omega) hhas
      · exact hz

/-- The heights `start`, `start + span`, ... of a round's request, `n` of them. -/
theorem samples_pairwise {start span n : Nat} (hspan : 0 < span) :
    ((List.range n).map fun k => start + k * span).reverse.Pairwise (· > ·) := by
  rw [List.pairwise_reverse, List.pairwise_map]
  exact (List.pairwise_lt_range).imp fun hab => Nat.add_lt_add_left (Nat.mul_lt_mul_of_pos_right hab hspan) _

theorem samples_bounds {start span n stop : Nat} (hlast : start + (n - 1) * span ≤ stop) :
    ∀ h ∈ ((List.range n).map fun k => start + k * span).reverse, start ≤ h ∧ h ≤ stop := by
  intro h hh
  simp only [List.mem_reverse, List.mem_map, List.mem_range] at hh
  obtain ⟨k, hk, rfl⟩ := hh
  have : k * span ≤ (n - 1) * span := Nat.mul_le_mul_right _ (by omega)
  omega

/-- In every round over `[start, end]`, `end` at most `hi`, `S` asks the peer for the
chain's headers at `start`, `start + span`, ..., at least one and none above `end`, and
gets them, keeping `Good` of the task. -/
def Search.AnswersFrom (S : Search w η σ) (chain : Nat → η) (hi : Nat) (Good : σ → Prop) : Prop :=
  ∀ t (start stop : BitVec w), Good t → start ≤ stop → stop.toNat ≤ hi →
    ∃ n span t', 0 < n ∧ 0 < span ∧ start.toNat + (n - 1) * span ≤ stop.toNat ∧ Good t' ∧
      S.download t start ((stop - start) / S.listLimit + 1 - 1)
          (S.limit start stop ((stop - start) / S.listLimit + 1)) =
        .ok ((List.range n).map fun k => chain (start.toNat + k * span), t')

/-- Against a peer that answers from `chain`, every round keeps the bracket, so the loop
ends on the greatest height of `[lo, hi]` the local chain has, or on nothing. -/
theorem lookup_honest (S : Search w η σ) (hasBlock : Hash → Bool) {Good : σ → Prop}
    (hans : S.AnswersFrom chain hi Good) (hord : ∀ {a b : BitVec w}, a < b → S.outOfOrder a b = false)
    (hnum : ∀ h ≤ hi, (number (chain h)).toNat = h) (hdown : DownClosed (Has hasBlock chain) hi)
    (hhi : hi + 1 < 2 ^ w) :
    ∀ (fuel : Nat) (t : σ) (start stop : BitVec w) (best : Option Nat),
      measure start stop < fuel → Good t →
      Bracket (Has hasBlock chain) lo hi start.toNat (stop.toNat + 1) best →
      (start.toNat = 0 → Has hasBlock chain 0) →
      ∃ k t', lookup S hasBlock fuel t start stop (best.map chain) = .ok (k.map chain, t') ∧
        IsTop (Has hasBlock chain) lo hi k := by
  intro fuel
  induction fuel with
  | zero => intro _ _ _ _ hfuel; omega
  | succ fuel ih =>
    intro t start stop best hfuel hgood hb hz
    have hstop := hb.top_le
    simp only [lookup]
    by_cases hle : start ≤ stop
    · rw [if_pos hle]
      obtain ⟨n, span, t₁, hn, hspan, hlast, hgood₁, hdl⟩ := hans t start stop hgood hle (by omega)
      rw [hdl]
      dsimp only
      have hrev : ((List.range n).map fun k => chain (start.toNat + k * span)).reverse =
          (((List.range n).map fun k => start.toNat + k * span).reverse).map chain := by
        simp [List.map_reverse]
      rw [hrev]
      obtain ⟨r, hr, hround⟩ := scan_honest S.width_pos hord hnum hdown _ none start stop best
        (samples_pairwise hspan) (samples_bounds hlast) (by rintro _ ⟨⟩) hb hz
      rw [hr]
      cases r with
      | found rh =>
        obtain ⟨k, rfl, htop⟩ := hround
        exact ⟨some k, t₁, rfl, htop⟩
      | next start' stop' best' =>
        obtain ⟨b, rfl, hb', hz'⟩ := hround
        have hfull : ¬Full start stop := by
          unfold Full
          omega
        have hne : (((List.range n).map fun k => start.toNat + k * span).reverse).map chain ≠ [] := by
          simp only [ne_eq, List.map_eq_nil_iff, List.reverse_eq_nil_iff, List.range_eq_nil]
          omega
        have hlt := scan_measure_lt S.width_pos S.outOfOrder_of_lt hfull hne hr
        exact ih t₁ start' stop' b (by omega) hgood₁ hb' hz'
    · rw [if_neg hle]
      rw [BitVec.le_def] at hle
      exact ⟨best, t, rfl, hb.isTop_of_le (by omega)⟩

theorem Search.AnswersFrom.mono {S : Search w η σ} {Good : σ → Prop} {hi' : Nat}
    (h : S.AnswersFrom chain hi Good) (hle : hi' ≤ hi) : S.AnswersFrom chain hi' Good :=
  fun t start stop hgood hss hstop => h t start stop hgood hss (Nat.le_trans hstop hle)

/-- The search of `[start, end]` from nothing found, against a peer answering from `chain`
up to `end`: it ends on the greatest height of `[start, end]` the local chain has, or on
nothing, when the range does not start at a height `0` the local chain lacks. -/
theorem lookup_from (S : Search w η σ) (hasBlock : Hash → Bool) {Good : σ → Prop}
    (start stop : BitVec w) (hans : S.AnswersFrom chain stop.toNat Good)
    (hord : ∀ {a b : BitVec w}, a < b → S.outOfOrder a b = false)
    (hnum : ∀ h ≤ stop.toNat, (number (chain h)).toNat = h)
    (hdown : DownClosed (Has hasBlock chain) stop.toNat) (hstop : stop.toNat + 1 < 2 ^ w)
    (hz : start.toNat = 0 → Has hasBlock chain 0) {fuel : Nat} (hfuel : measure start stop < fuel)
    {t : σ} (hgood : Good t) :
    ∃ k t', lookup S hasBlock fuel t start stop none = .ok (k.map chain, t') ∧
      IsTop (Has hasBlock chain) start.toNat stop.toNat k := by
  by_cases hle : start.toNat ≤ stop.toNat + 1
  · exact lookup_honest S hasBlock hans hord hnum hdown hstop fuel t start stop none hfuel hgood
      (bracket_init hle) hz
  · -- an empty range: the loop does not run
    obtain ⟨fuel, rfl⟩ : ∃ f, fuel = f + 1 := ⟨fuel - 1, by omega⟩
    have hlt : ¬start ≤ stop := by
      rw [BitVec.le_def]
      omega
    refine ⟨none, t, ?_, isTop_none_of_lt (by omega)⟩
    simp only [lookup, if_neg hlt]
    rfl

end Honest

/-! ## The two tasks -/

/-- A check that fails with an error: passing it is the only way to succeed. -/
theorem ite_error_eq_ok {α : Type} {p : Prop} [Decidable p] {e : Failure} {x : Except Failure α}
    {b : α} (h : (if p then .error e else x) = .ok b) : ¬p ∧ x = .ok b := by
  by_cases hp : p
  · rw [if_pos hp] at h
    cases h
  · rw [if_neg hp] at h
    exact ⟨hp, h⟩

/-- The peer's `GetRootBlockHeaderList`: the header list and the peer's `RootTip`, or a
network error. -/
abbrev RootPeer := HeaderListRequest 32 → Except String (List RootHeader × RootHeader)

/-- The peer's `GetMinorBlockHeaderList`. -/
abbrev MinorPeer := HeaderListRequest 64 → Except String (List MinorHeader)

/-! ## A peer that answers from a chain -/

/-- The heights a request asks for: `height`, `height + skip + 1`, ..., `limit` of them,
those up to the peer's tip. -/
def requestedHeights {w : Nat} (req : HeaderListRequest w) (tip : Nat) : List Nat :=
  ((List.range req.limit.toNat).map fun k => req.height.toNat + k * (req.skip.toNat + 1)).filter
    (· ≤ tip)

theorem requestedHeights_eq {w : Nat} {req : HeaderListRequest w} {tip : Nat}
    (h : req.height.toNat + (req.limit.toNat - 1) * (req.skip.toNat + 1) ≤ tip) :
    requestedHeights req tip =
      (List.range req.limit.toNat).map fun k => req.height.toNat + k * (req.skip.toNat + 1) := by
  unfold requestedHeights
  rw [List.filter_eq_self]
  intro x hx
  simp only [List.mem_map, List.mem_range] at hx
  obtain ⟨k, hk, rfl⟩ := hx
  have : k * (req.skip.toNat + 1) ≤ (req.limit.toNat - 1) * (req.skip.toNat + 1) :=
    Nat.mul_le_mul_right _ (by omega)
  simp only [decide_eq_true_eq]
  omega

/-- A root peer whose chain has `chain h` at height `h` up to `tip`: it answers with the
requested headers and its tip. -/
def honestRootPeer (chain : Nat → RootHeader) (tip : Nat) : RootPeer :=
  fun req => .ok ((requestedHeights req tip).map chain, chain tip)

/-- A shard peer whose chain has `chain h` at height `h` up to `tip`. -/
def honestMinorPeer (chain : Nat → MinorHeader) (tip : Nat) : MinorPeer :=
  fun req => .ok ((requestedHeights req tip).map chain)

namespace RootChainTask

def maxSyncStaleness : BitVec 32 := 22500

/-- `downloadBlockHeaderListAndCheck`, with `r.header`: the tip must have more total
difficulty than `r.header` has difficulty, and the list as many headers as the tip's
height leaves room for; a tip with another hash replaces `r.header`. -/
def downloadBlockHeaderListAndCheck (peer : RootPeer) (header : RootHeader)
    (start skip limit : BitVec 32) : Except Failure (List RootHeader × RootHeader) :=
  match peer ⟨start, skip, limit⟩ with
  | .error err => .error (.error err)
  | .ok (blockHeaderList, rootTip) =>
    if rootTip.totalDifficulty ≤ header.difficulty then
      .error (.error "Bad peer sending root block tip with lower TD ")
    else if blockHeaderList.length = 0 then
      .error (.error "Remote chain reorg causing empty root block headers ")
    else
      let newLimit := (rootTip.number + 1 - start + skip) / (skip + 1)
      let newLimit := if newLimit > limit then limit else newLimit
      if blockHeaderList.length ≠ newLimit.toNat then
        let expect := newLimit.toNat
        let actual := blockHeaderList.length
        .error (.error
          s!"Bad peer sending incorrect number of root block headers expect: {expect}, actual: {actual}\n")
      else .ok (blockHeaderList, if rootTip.hash ≠ header.hash then rootTip else header)

theorem downloadBlockHeaderListAndCheck_ok {peer : RootPeer} {header : RootHeader}
    {start skip limit : BitVec 32} {l : List RootHeader} {t : RootHeader}
    (h : downloadBlockHeaderListAndCheck peer header start skip limit = .ok (l, t)) :
    l ≠ [] ∧ l.length ≤ limit.toNat := by
  unfold downloadBlockHeaderListAndCheck at h
  split at h
  · cases h
  · dsimp only at h
    obtain ⟨-, h⟩ := ite_error_eq_ok h
    obtain ⟨hempty, h⟩ := ite_error_eq_ok h
    obtain ⟨hlen, h⟩ := ite_error_eq_ok h
    cases h
    refine ⟨fun hnil => hempty (by rw [hnil, List.length_nil]), ?_⟩
    rw [not_not.mp hlen]
    exact toNat_clamp_le _ _

theorem downloadBlockHeaderListAndCheck_error {peer : RootPeer} {header : RootHeader}
    {start skip limit : BitVec 32} {f : Failure}
    (h : downloadBlockHeaderListAndCheck peer header start skip limit = .error f) :
    ∃ msg, f = .error msg := by
  unfold downloadBlockHeaderListAndCheck at h
  split at h
  · cases h
    exact ⟨_, rfl⟩
  · dsimp only at h
    split_ifs at h <;> cases h <;> exact ⟨_, rfl⟩

/-- Against a peer answering from `chain`, every round of the root search asks for the
chain's headers over `[start, end]` and gets them. `r.header` stays the task's header or
becomes the peer's tip, and the tip's total difficulty must exceed its difficulty. -/
theorem downloadBlockHeaderListAndCheck_honest {chain : Nat → RootHeader} {tip : Nat}
    (hnum : (chain tip).number.toNat = tip) (htip : tip < 2 ^ 31)
    (hTD : (chain tip).difficulty < (chain tip).totalDifficulty) {t : RootHeader}
    (hgood : t.difficulty < (chain tip).totalDifficulty) {start stop : BitVec 32}
    (hle : start ≤ stop) (hstop : stop.toNat ≤ tip) :
    ∃ n span t', 0 < n ∧ 0 < span ∧ start.toNat + (n - 1) * span ≤ stop.toNat ∧
      t'.difficulty < (chain tip).totalDifficulty ∧
      downloadBlockHeaderListAndCheck (honestRootPeer chain tip) t start ((stop - start) / 500 + 1 - 1)
          ((stop + 1 - start) / ((stop - start) / 500 + 1)) =
        .ok ((List.range n).map fun k => chain (start.toNat + k * span), t') := by
  have hL : (500 : BitVec 32).toNat = 500 := rfl
  have hs := BitVec.le_def.mp hle
  have hspan := toNat_span (by decide) hle (by rw [hL]; decide)
  have hskip := toNat_span_sub_one (by decide) hle (by rw [hL]; decide)
  rw [hL] at hspan hskip
  have hsub := toNat_add_one_sub stop start (by decide) (by omega) (by omega)
  -- `n` headers `span` apart: as many as fit in `[start, end]`
  have hspan_le : (stop.toNat - start.toNat) / 500 + 1 ≤ stop.toNat - start.toNat + 1 := by omega
  have hn_pos : 0 < (stop.toNat - start.toNat + 1) / ((stop.toNat - start.toNat) / 500 + 1) :=
    Nat.div_pos hspan_le (Nat.succ_pos _)
  have hn_mul := Nat.div_mul_le_self (stop.toNat - start.toNat + 1) ((stop.toNat - start.toNat) / 500 + 1)
  have hlimit : ((stop + 1 - start) / ((stop - start) / 500 + 1)).toNat =
      (stop.toNat - start.toNat + 1) / ((stop.toNat - start.toNat) / 500 + 1) := by
    rw [BitVec.toNat_udiv, hsub, hspan]
    congr 1
    omega
  have hlast : start.toNat + ((stop.toNat - start.toNat + 1) / ((stop.toNat - start.toNat) / 500 + 1) - 1) *
      ((stop.toNat - start.toNat) / 500 + 1) ≤ stop.toNat := last_sample_le hs hn_pos (by omega)
  -- the count the download expects from the tip's height reaches the request
  have hnew := toNat_newLimit (chain tip).number (by decide) hle (by rw [hL]; decide)
    (by rw [hnum]; omega) (by rw [hnum]; omega)
  rw [hL, hnum] at hnew
  have hreach : ((stop + 1 - start) / ((stop - start) / 500 + 1)).toNat ≤
      (((chain tip).number + 1 - start + ((stop - start) / 500 + 1 - 1)) /
        ((stop - start) / 500 + 1 - 1 + 1)).toNat := by
    rw [hlimit, hnew]
    exact Nat.div_le_div_right (by omega)
  refine ⟨_, _, if (chain tip).hash ≠ t.hash then chain tip else t, hn_pos, Nat.succ_pos _, hlast,
    by split_ifs <;> assumption, ?_⟩
  have hreq : requestedHeights (⟨start, (stop - start) / 500 + 1 - 1,
      (stop + 1 - start) / ((stop - start) / 500 + 1)⟩ : HeaderListRequest 32) tip =
      (List.range ((stop.toNat - start.toNat + 1) / ((stop.toNat - start.toNat) / 500 + 1))).map
        fun k => start.toNat + k * ((stop.toNat - start.toNat) / 500 + 1) := by
    rw [requestedHeights_eq] <;> simp only [hlimit, hskip]
    omega
  unfold downloadBlockHeaderListAndCheck honestRootPeer
  dsimp only
  rw [hreq, if_neg (by omega), if_neg (by simp; omega), clamp_of_le hreach, hlimit]
  simp

/-- The root task's search: 500 headers a round at most, `(end + 1 - start) / span` of
them, and heights strictly decreasing in the scan. -/
def search (peer : RootPeer) : Search 32 RootHeader RootHeader where
  kind := "root"
  listLimit := 500
  limit := fun start stop span => (stop + 1 - start) / span
  outOfOrder := fun a b => decide (a ≥ b)
  download := downloadBlockHeaderListAndCheck peer
  width_pos := by decide
  outOfOrder_of_lt := fun h => decide_eq_true (BitVec.le_def.mpr (Nat.le_of_lt (BitVec.lt_def.mp h)))
  limit_allOnes := fun span => by
    rw [show BitVec.allOnes 32 + 1 - 0 = 0 by decide]
    exact BitVec.eq_of_toNat_eq (by simp)
  download_ok := downloadBlockHeaderListAndCheck_ok
  download_error := downloadBlockHeaderListAndCheck_error

theorem search_answersFrom {chain : Nat → RootHeader} {tip : Nat}
    (hnum : (chain tip).number.toNat = tip) (htip : tip < 2 ^ 31)
    (hTD : (chain tip).difficulty < (chain tip).totalDifficulty) :
    (search (honestRootPeer chain tip)).AnswersFrom chain tip
      (fun t => t.difficulty < (chain tip).totalDifficulty) :=
  fun _ _ _ hgood hle hstop => downloadBlockHeaderListAndCheck_honest hnum htip hTD hgood hle hstop

/-- `rootChainTask.findAncestor`: the local tip when the peer's header is its child, else
the search of `[tip - maxSyncStaleness, min(tip, header)]`, with `r.header` as the
downloads leave it. -/
def findAncestor (peer : RootPeer) (bc : Blockchain RootHeader) (header : RootHeader) :
    Except Failure (Option RootHeader × RootHeader) :=
  let rtip := bc.currentHeader
  if header.parentHash = rtip.hash then .ok (some rtip, header)
  else
    let stop := rtip.number
    let start := if stop < maxSyncStaleness then 0 else stop - maxSyncStaleness
    let stop := if header.number < stop then header.number else stop
    lookup (search peer) bc.hasBlock (2 ^ 33 + 1) header start stop none

/-- Whatever the peer answers, `findAncestor` stops after finitely many requests, with an
error, with nothing, or with a header the local chain has. -/
theorem findAncestor_returns (peer : RootPeer) (bc : Blockchain RootHeader) (header : RootHeader) :
    (∃ msg, findAncestor peer bc header = .error (.error msg)) ∨
      ∃ r t, findAncestor peer bc header = .ok (r, t) ∧
        ∀ rh, r = some rh → bc.hasBlock rh.hash = true := by
  unfold findAncestor
  dsimp only
  by_cases hparent : header.parentHash = bc.currentHeader.hash
  · rw [if_pos hparent]
    exact .inr ⟨some bc.currentHeader, header, rfl, by rintro _ ⟨⟩; exact bc.hasBlock_currentHeader⟩
  · rw [if_neg hparent]
    exact lookup_returns (search peer) bc.hasBlock _ _ _ _ _
      (Nat.lt_of_le_of_lt (measure_le _ _) (by norm_num)) (by rintro _ ⟨⟩)

/-- Against a peer answering from `chain`, a search whose range starts at height `0`
only when the local chain has the chain's genesis ends on the greatest height of the
range that the local chain has, or on nothing. The range runs from `maxSyncStaleness`
below the local tip to the lower of the local tip and the peer's header; the tip's
total difficulty must exceed the difficulty of the header and of the tip, and heights
stay below `2 ^ 31`. -/
theorem findAncestor_honest (bc : Blockchain RootHeader) {chain : Nat → RootHeader} {tip : Nat}
    (header : RootHeader) (hnum : ∀ h ≤ tip, (chain h).number.toNat = h) (htip : tip < 2 ^ 31)
    (hheader : header.number.toNat ≤ tip)
    (hknown : TopSearch.DownClosed (fun h => bc.hasBlock (chain h).hash = true) tip)
    (hTD : header.difficulty < (chain tip).totalDifficulty)
    (hTDtip : (chain tip).difficulty < (chain tip).totalDifficulty)
    (hparent : header.parentHash ≠ bc.currentHeader.hash)
    (hgenesis : bc.currentHeader.number.toNat ≤ 22500 → bc.hasBlock (chain 0).hash = true) :
    ∃ k t, findAncestor (honestRootPeer chain tip) bc header = .ok (k.map chain, t) ∧
      TopSearch.IsTop (fun h => bc.hasBlock (chain h).hash = true)
        (bc.currentHeader.number.toNat - 22500)
        (min header.number.toNat bc.currentHeader.number.toNat) k := by
  have hstart := toNat_start bc.currentHeader.number maxSyncStaleness
  have hstop := toNat_min header.number bc.currentHeader.number
  have hstale : maxSyncStaleness.toNat = 22500 := rfl
  rw [hstale] at hstart
  unfold findAncestor
  dsimp only
  rw [if_neg hparent, ← hstart, ← hstop]
  refine lookup_from (search (honestRootPeer chain tip)) bc.hasBlock _ _
    ((search_answersFrom (hnum tip (Nat.le_refl _)) htip hTDtip).mono (by omega))
    (fun h => decide_eq_false (BitVec.not_le.mpr h)) (fun h hh => hnum h (by omega))
    (hknown.mono (by omega)) (by omega) (fun h0 => hgenesis (by omega))
    (Nat.lt_of_le_of_lt (measure_le _ _) (by norm_num)) hTD

end RootChainTask

namespace MinorChainTask

def maxSyncStaleness : BitVec 64 := 22500 * 6

/-- `downloadBlockHeaderListAndCheck`: the request carries `skip` and `limit` as
`uint32`; the list must have as many headers as the task's header leaves room for. -/
def downloadBlockHeaderListAndCheck (peer : MinorPeer) (header : MinorHeader)
    (height skip limit : BitVec 64) : Except Failure (List MinorHeader × MinorHeader) :=
  match peer ⟨height, skip.setWidth 32, limit.setWidth 32⟩ with
  | .error err => .error (.error err)
  | .ok mHeaders =>
    if mHeaders.length = 0 then
      .error (.error "Remote chain reorg causing empty minor block headers ")
    else
      let newLimit := (header.number + 1 - height + skip) / (skip + 1)
      let newLimit := if newLimit > limit then limit else newLimit
      if mHeaders.length ≠ newLimit.toNat then
        let expect := newLimit.toNat
        let actual := mHeaders.length
        .error (.error
          s!"Bad peer sending incorrect number of minor block headers expect: {expect}, actual: {actual}")
      else .ok (mHeaders, header)

theorem downloadBlockHeaderListAndCheck_ok {peer : MinorPeer} {header : MinorHeader}
    {height skip limit : BitVec 64} {l : List MinorHeader} {t : MinorHeader}
    (h : downloadBlockHeaderListAndCheck peer header height skip limit = .ok (l, t)) :
    l ≠ [] ∧ l.length ≤ limit.toNat := by
  unfold downloadBlockHeaderListAndCheck at h
  split at h
  · cases h
  · dsimp only at h
    obtain ⟨hempty, h⟩ := ite_error_eq_ok h
    obtain ⟨hlen, h⟩ := ite_error_eq_ok h
    cases h
    refine ⟨fun hnil => hempty (by rw [hnil, List.length_nil]), ?_⟩
    rw [not_not.mp hlen]
    exact toNat_clamp_le _ _

theorem downloadBlockHeaderListAndCheck_error {peer : MinorPeer} {header : MinorHeader}
    {height skip limit : BitVec 64} {f : Failure}
    (h : downloadBlockHeaderListAndCheck peer header height skip limit = .error f) :
    ∃ msg, f = .error msg := by
  unfold downloadBlockHeaderListAndCheck at h
  split at h
  · cases h
    exact ⟨_, rfl⟩
  · dsimp only at h
    split_ifs at h <;> cases h <;> exact ⟨_, rfl⟩

/-- `(span - 1) / span` is `0`, at every span. -/
theorem sub_one_div_self (span : BitVec 64) : (0 + span - 1) / span = 0 := by
  apply BitVec.eq_of_toNat_eq
  rw [show (0 : BitVec 64) + span = span by simp, BitVec.toNat_udiv, toNat_sub_one (by decide)]
  split_ifs with h0
  · simp [h0]
  · change _ = 0
    exact Nat.div_eq_of_lt (by omega)

/-- Against a peer answering from `chain`, every round of the shard search over heights
up to the task's header asks for the chain's headers over `[start, end]` and gets them.
The request's `skip` and `limit` fit in `uint32` below height `2 ^ 31`. -/
theorem downloadBlockHeaderListAndCheck_honest {chain : Nat → MinorHeader} {tip : Nat}
    (htip : tip < 2 ^ 31) {header : MinorHeader} (hheader : header.number.toNat ≤ tip)
    {start stop : BitVec 64} (hle : start ≤ stop) (hstop : stop.toNat ≤ header.number.toNat) :
    ∃ n span, 0 < n ∧ 0 < span ∧ start.toNat + (n - 1) * span ≤ stop.toNat ∧
      downloadBlockHeaderListAndCheck (honestMinorPeer chain tip) header start
          ((stop - start) / 100 + 1 - 1)
          ((stop + 1 - start + ((stop - start) / 100 + 1) - 1) / ((stop - start) / 100 + 1)) =
        .ok ((List.range n).map fun k => chain (start.toNat + k * span), header) := by
  have hL : (100 : BitVec 64).toNat = 100 := rfl
  have hs := BitVec.le_def.mp hle
  have hspan := toNat_span (by decide) hle (by rw [hL]; decide)
  have hskip := toNat_span_sub_one (by decide) hle (by rw [hL]; decide)
  rw [hL] at hspan hskip
  have hsub := toNat_add_one_sub stop start (by decide) (by omega) (by omega)
  -- `n` headers `span` apart: the ceiling of `(end + 1 - start) / span`
  have hsum : (stop + 1 - start + ((stop - start) / 100 + 1)).toNat =
      stop.toNat + 1 - start.toNat + ((stop.toNat - start.toNat) / 100 + 1) := by
    rw [BitVec.toNat_add_of_lt] <;> rw [hsub, hspan]
    omega
  have hnum1 : (stop + 1 - start + ((stop - start) / 100 + 1) - 1).toNat =
      stop.toNat - start.toNat + ((stop.toNat - start.toNat) / 100 + 1) := by
    rw [toNat_sub_one (by decide), hsum, if_neg (by omega)]
    omega
  have hn_pos : 0 < (stop.toNat - start.toNat + ((stop.toNat - start.toNat) / 100 + 1)) /
      ((stop.toNat - start.toNat) / 100 + 1) := Nat.div_pos (by omega) (Nat.succ_pos _)
  have hn_mul := Nat.div_mul_le_self (stop.toNat - start.toNat + ((stop.toNat - start.toNat) / 100 + 1))
    ((stop.toNat - start.toNat) / 100 + 1)
  have hn_le : (stop.toNat - start.toNat + ((stop.toNat - start.toNat) / 100 + 1)) /
      ((stop.toNat - start.toNat) / 100 + 1) ≤ stop.toNat - start.toNat + 1 :=
    Nat.div_le_of_le_mul (by
      have := Nat.le_mul_of_pos_left (stop.toNat - start.toNat)
        (by omega : 0 < (stop.toNat - start.toNat) / 100 + 1)
      rw [Nat.mul_add, Nat.mul_one]
      omega)
  have hlimit : ((stop + 1 - start + ((stop - start) / 100 + 1) - 1) / ((stop - start) / 100 + 1)).toNat =
      (stop.toNat - start.toNat + ((stop.toNat - start.toNat) / 100 + 1)) /
        ((stop.toNat - start.toNat) / 100 + 1) := by
    rw [BitVec.toNat_udiv, hnum1, hspan]
  have hlast : start.toNat + ((stop.toNat - start.toNat + ((stop.toNat - start.toNat) / 100 + 1)) /
      ((stop.toNat - start.toNat) / 100 + 1) - 1) * ((stop.toNat - start.toNat) / 100 + 1) ≤ stop.toNat :=
    last_sample_le hs hn_pos (by omega)
  -- the request carries `skip` and `limit` as `uint32`, which they fit in
  have hskip32 : (((stop - start) / 100 + 1 - 1).setWidth 32).toNat = (stop.toNat - start.toNat) / 100 := by
    rw [BitVec.toNat_setWidth, hskip, Nat.mod_eq_of_lt (by omega)]
  have hlimit32 : (((stop + 1 - start + ((stop - start) / 100 + 1) - 1) / ((stop - start) / 100 + 1)).setWidth 32).toNat =
      (stop.toNat - start.toNat + ((stop.toNat - start.toNat) / 100 + 1)) /
        ((stop.toNat - start.toNat) / 100 + 1) := by
    rw [BitVec.toNat_setWidth, hlimit, Nat.mod_eq_of_lt (by omega)]
  -- the count the download expects from the header's height reaches the request
  have hnew := toNat_newLimit header.number (by decide) hle (by rw [hL]; decide) hstop (by omega)
  rw [hL] at hnew
  have hreach : ((stop + 1 - start + ((stop - start) / 100 + 1) - 1) / ((stop - start) / 100 + 1)).toNat ≤
      ((header.number + 1 - start + ((stop - start) / 100 + 1 - 1)) /
        ((stop - start) / 100 + 1 - 1 + 1)).toNat := by
    rw [hlimit, hnew]
    exact Nat.div_le_div_right (by omega)
  refine ⟨_, _, hn_pos, Nat.succ_pos _, hlast, ?_⟩
  have hreq : requestedHeights (⟨start, ((stop - start) / 100 + 1 - 1).setWidth 32,
      ((stop + 1 - start + ((stop - start) / 100 + 1) - 1) / ((stop - start) / 100 + 1)).setWidth 32⟩ :
        HeaderListRequest 64) tip =
      (List.range ((stop.toNat - start.toNat + ((stop.toNat - start.toNat) / 100 + 1)) /
        ((stop.toNat - start.toNat) / 100 + 1))).map
        fun k => start.toNat + k * ((stop.toNat - start.toNat) / 100 + 1) := by
    rw [requestedHeights_eq]
    · simp only [hlimit32, hskip32]
    · simp only [hlimit32, hskip32]
      omega
  unfold downloadBlockHeaderListAndCheck honestMinorPeer
  dsimp only
  rw [hreq, if_neg (by simp only [List.length_map, List.length_range]; omega), clamp_of_le hreach,
    hlimit]
  simp

/-- The shard task's search: 100 headers a round at most, `(end + 1 - start + span - 1) / span`
of them, and heights never increasing in the scan. -/
def search (peer : MinorPeer) : Search 64 MinorHeader MinorHeader where
  kind := "minor"
  listLimit := 100
  limit := fun start stop span => (stop + 1 - start + span - 1) / span
  outOfOrder := fun a b => decide (a > b)
  download := downloadBlockHeaderListAndCheck peer
  width_pos := by decide
  outOfOrder_of_lt := fun h => decide_eq_true h
  limit_allOnes := fun span => by
    rw [show BitVec.allOnes 64 + 1 - 0 = 0 by decide]
    exact sub_one_div_self span
  download_ok := downloadBlockHeaderListAndCheck_ok
  download_error := downloadBlockHeaderListAndCheck_error

theorem search_answersFrom {chain : Nat → MinorHeader} {tip : Nat} (htip : tip < 2 ^ 31)
    {header : MinorHeader} (hheader : header.number.toNat ≤ tip) :
    (search (honestMinorPeer chain tip)).AnswersFrom chain header.number.toNat (· = header) := by
  rintro t start stop rfl hle hstop
  obtain ⟨n, span, hn, hspan, hlast, hdl⟩ := downloadBlockHeaderListAndCheck_honest htip hheader hle hstop
  exact ⟨n, span, t, hn, hspan, hlast, rfl, hdl⟩

/-- `minorChainTask.findAncestor`: the local tip when it is the peer's header, else the
search of `[tip - maxSyncStaleness, min(tip, header)]`. -/
def findAncestor (peer : MinorPeer) (bc : Blockchain MinorHeader) (header : MinorHeader) :
    Except Failure (Option MinorHeader) :=
  let mtip := bc.currentHeader
  if header.hash = mtip.hash then .ok (some mtip)
  else
    let stop := mtip.number
    let start := if stop < maxSyncStaleness then 0 else stop - maxSyncStaleness
    let stop := if header.number < stop then header.number else stop
    (lookup (search peer) bc.hasBlock (2 ^ 65 + 1) header start stop none).map Prod.fst

/-- Whatever the peer answers, `findAncestor` stops after finitely many requests, with an
error, with nothing, or with a header the local chain has. -/
theorem findAncestor_returns (peer : MinorPeer) (bc : Blockchain MinorHeader) (header : MinorHeader) :
    (∃ msg, findAncestor peer bc header = .error (.error msg)) ∨
      ∃ r, findAncestor peer bc header = .ok r ∧ ∀ rh, r = some rh → bc.hasBlock rh.hash = true := by
  unfold findAncestor
  dsimp only
  by_cases hhash : header.hash = bc.currentHeader.hash
  · rw [if_pos hhash]
    exact .inr ⟨some bc.currentHeader, rfl, by rintro _ ⟨⟩; exact bc.hasBlock_currentHeader⟩
  · rw [if_neg hhash]
    rcases lookup_returns (search peer) bc.hasBlock (2 ^ 65 + 1) header _ _ none
        (Nat.lt_of_le_of_lt (measure_le _ _) (by norm_num)) (by rintro _ ⟨⟩) with
      ⟨msg, hmsg⟩ | ⟨r, t, hr, hknown⟩
    · exact .inl ⟨msg, by rw [hmsg]; rfl⟩
    · exact .inr ⟨r, by rw [hr]; rfl, hknown⟩

/-- Against a peer answering from `chain`, a search whose range starts at height `0`
only when the local chain has the chain's genesis ends on the greatest height of the
range that the local chain has, or on nothing; heights stay below `2 ^ 31`. -/
theorem findAncestor_honest (bc : Blockchain MinorHeader) {chain : Nat → MinorHeader} {tip : Nat}
    (header : MinorHeader) (hnum : ∀ h ≤ tip, (chain h).number.toNat = h) (htip : tip < 2 ^ 31)
    (hheader : header.number.toNat ≤ tip)
    (hknown : TopSearch.DownClosed (fun h => bc.hasBlock (chain h).hash = true) tip)
    (hhash : header.hash ≠ bc.currentHeader.hash)
    (hgenesis : bc.currentHeader.number.toNat ≤ 135000 → bc.hasBlock (chain 0).hash = true) :
    ∃ k, findAncestor (honestMinorPeer chain tip) bc header = .ok (k.map chain) ∧
      TopSearch.IsTop (fun h => bc.hasBlock (chain h).hash = true)
        (bc.currentHeader.number.toNat - 135000)
        (min header.number.toNat bc.currentHeader.number.toNat) k := by
  have hstart := toNat_start bc.currentHeader.number maxSyncStaleness
  have hstop := toNat_min header.number bc.currentHeader.number
  have hstale : maxSyncStaleness.toNat = 135000 := rfl
  rw [hstale] at hstart
  unfold findAncestor
  dsimp only
  rw [if_neg hhash]
  generalize (if bc.currentHeader.number < maxSyncStaleness then 0
    else bc.currentHeader.number - maxSyncStaleness) = start at hstart ⊢
  generalize (if header.number < bc.currentHeader.number then header.number
    else bc.currentHeader.number) = stop at hstop ⊢
  obtain ⟨k, t, hl, htop⟩ := lookup_from (search (honestMinorPeer chain tip)) bc.hasBlock start stop
    ((search_answersFrom htip hheader).mono (by omega))
    (fun h => decide_eq_false (BitVec.not_lt.mpr (BitVec.le_of_lt h)))
    (fun h hh => hnum h (by omega)) (hknown.mono (by omega)) (by omega) (fun h0 => hgenesis (by omega))
    (show measure start stop < 2 ^ 65 + 1 from Nat.lt_of_le_of_lt (measure_le _ _) (by norm_num)) rfl
  rw [hstart, hstop] at htop
  exact ⟨k, by rw [hl]; rfl, htop⟩

end MinorChainTask

/-! ## Both tasks -/

/-- Whatever a peer answers, the search of either task stops within the rounds `measure`
allows, with an error, with nothing, or with a header the local chain has. -/
theorem findAncestor_stops :
    (∀ (peer : RootPeer) (bc : Blockchain RootHeader) (header : RootHeader),
      (∃ msg, RootChainTask.findAncestor peer bc header = .error (.error msg)) ∨
        ∃ r t, RootChainTask.findAncestor peer bc header = .ok (r, t) ∧
          ∀ rh, r = some rh → bc.hasBlock rh.hash = true) ∧
    ∀ (peer : MinorPeer) (bc : Blockchain MinorHeader) (header : MinorHeader),
      (∃ msg, MinorChainTask.findAncestor peer bc header = .error (.error msg)) ∨
        ∃ r, MinorChainTask.findAncestor peer bc header = .ok r ∧
          ∀ rh, r = some rh → bc.hasBlock rh.hash = true :=
  ⟨RootChainTask.findAncestor_returns, MinorChainTask.findAncestor_returns⟩

/-- Against a peer answering from `chain`, the search of either task ends on the greatest
height of its range that the local chain has, or on nothing. The local chain holds a
down-closed set of `chain`'s heights, the chain's genesis among them when the range starts at
`0`, and heights stay below `2 ^ 31`; the root task also needs the total difficulty of the
peer's tip to exceed the difficulty of the header and of the tip. -/
theorem findAncestor_finds_top_common :
    (∀ (bc : Blockchain RootHeader) (chain : Nat → RootHeader) (tip : Nat) (header : RootHeader),
      (∀ h ≤ tip, (chain h).number.toNat = h) → tip < 2 ^ 31 → header.number.toNat ≤ tip →
      TopSearch.DownClosed (fun h => bc.hasBlock (chain h).hash = true) tip →
      header.difficulty < (chain tip).totalDifficulty →
      (chain tip).difficulty < (chain tip).totalDifficulty →
      header.parentHash ≠ bc.currentHeader.hash →
      (bc.currentHeader.number.toNat ≤ 22500 → bc.hasBlock (chain 0).hash = true) →
      ∃ k t, RootChainTask.findAncestor (honestRootPeer chain tip) bc header =
          .ok (k.map chain, t) ∧
        TopSearch.IsTop (fun h => bc.hasBlock (chain h).hash = true)
          (bc.currentHeader.number.toNat - 22500)
          (min header.number.toNat bc.currentHeader.number.toNat) k) ∧
    ∀ (bc : Blockchain MinorHeader) (chain : Nat → MinorHeader) (tip : Nat) (header : MinorHeader),
      (∀ h ≤ tip, (chain h).number.toNat = h) → tip < 2 ^ 31 → header.number.toNat ≤ tip →
      TopSearch.DownClosed (fun h => bc.hasBlock (chain h).hash = true) tip →
      header.hash ≠ bc.currentHeader.hash →
      (bc.currentHeader.number.toNat ≤ 135000 → bc.hasBlock (chain 0).hash = true) →
      ∃ k, MinorChainTask.findAncestor (honestMinorPeer chain tip) bc header = .ok (k.map chain) ∧
        TopSearch.IsTop (fun h => bc.hasBlock (chain h).hash = true)
          (bc.currentHeader.number.toNat - 135000)
          (min header.number.toNat bc.currentHeader.number.toNat) k :=
  ⟨fun bc _ _ header => RootChainTask.findAncestor_honest bc header,
    fun bc _ _ header => MinorChainTask.findAncestor_honest bc header⟩

/-! ## A search that starts at height `0` and finds nothing -/

/-- A root chain of eleven headers on the peer: height `h` has hash `100 + h`, difficulty
`1` and total difficulty `h + 1`. -/
def rootPeerChain (h : Nat) : RootHeader := ⟨100 + h, BitVec.ofNat 32 h, 99 + h, 1, h + 1⟩

/-- A local root chain of another genesis, with its tip at height `5`: it has the blocks
whose hashes are from `200` on. -/
def otherGenesisRootChain : Blockchain RootHeader where
  currentHeader := ⟨205, 5, 204, 1, 6⟩
  hasBlock := fun x => decide (200 ≤ x)
  hasBlock_currentHeader := by decide

/-- The shard chains of the same shape. -/
def minorPeerChain (h : Nat) : MinorHeader := ⟨100 + h, BitVec.ofNat 64 h⟩

def otherGenesisMinorChain : Blockchain MinorHeader where
  currentHeader := ⟨205, 5⟩
  hasBlock := fun x => decide (200 ≤ x)
  hasBlock_currentHeader := by decide

/-- The local chain has none of the peer's headers in `[0, 5]`, the range of the search,
so the search should find nothing. In both tasks the first round misses down to height
`0` and sets `end` to `0 - 1`, the largest `uint32` or `uint64`; the second asks for `0`
headers, gets none and fails. -/
theorem findAncestor_unknown_genesis_fails :
    (∀ h ≤ 5, otherGenesisRootChain.hasBlock (rootPeerChain h).hash = false) ∧
      RootChainTask.findAncestor (honestRootPeer rootPeerChain 10) otherGenesisRootChain
          (rootPeerChain 10) =
        .error (.error "Remote chain reorg causing empty root block headers ") ∧
    (∀ h ≤ 5, otherGenesisMinorChain.hasBlock (minorPeerChain h).hash = false) ∧
      MinorChainTask.findAncestor (honestMinorPeer minorPeerChain 10) otherGenesisMinorChain
          (minorPeerChain 10) =
        .error (.error "Remote chain reorg causing empty minor block headers ") :=
  ⟨by decide, rfl, by decide, rfl⟩

/-! ## A search over a shared genesis -/

/-- Local chains that have the peer's headers up to height `5`, their tip. -/
def sameGenesisRootChain : Blockchain RootHeader where
  currentHeader := rootPeerChain 5
  hasBlock := fun x => decide (x ≤ 105)
  hasBlock_currentHeader := by decide

def sameGenesisMinorChain : Blockchain MinorHeader where
  currentHeader := minorPeerChain 5
  hasBlock := fun x => decide (x ≤ 105)
  hasBlock_currentHeader := by decide

theorem number_rootPeerChain {h : Nat} (hh : h ≤ 10) : (rootPeerChain h).number.toNat = h := by
  simp only [rootPeerChain, BitVec.toNat_ofNat]
  omega

theorem number_minorPeerChain {h : Nat} (hh : h ≤ 10) : (minorPeerChain h).number.toNat = h := by
  simp only [minorPeerChain, BitVec.toNat_ofNat]
  omega

/-- Holding the heights `h` with `c + h ≤ k` is down-closed; both local chains hold the
peer's headers this way, whose hashes are `100 + h`. -/
theorem downClosed_add_le (c k hi : Nat) :
    TopSearch.DownClosed (fun h => decide (c + h ≤ k) = true) hi := by
  intro h h' hle _ hh
  simp only [decide_eq_true_eq] at hh ⊢
  omega

/-- Both searches for the peer's tip at height `10` end on the local tip at height `5`. -/
theorem findAncestor_finds_top_common_same_genesis :
    (∃ k t, RootChainTask.findAncestor (honestRootPeer rootPeerChain 10) sameGenesisRootChain
          (rootPeerChain 10) = .ok (k.map rootPeerChain, t) ∧
        TopSearch.IsTop (fun h => sameGenesisRootChain.hasBlock (rootPeerChain h).hash = true)
          (5 - 22500) (min 10 5) k) ∧
      ∃ k, MinorChainTask.findAncestor (honestMinorPeer minorPeerChain 10) sameGenesisMinorChain
          (minorPeerChain 10) = .ok (k.map minorPeerChain) ∧
        TopSearch.IsTop (fun h => sameGenesisMinorChain.hasBlock (minorPeerChain h).hash = true)
          (5 - 135000) (min 10 5) k := by
  have hrootKnown : TopSearch.DownClosed
      (fun h => sameGenesisRootChain.hasBlock (rootPeerChain h).hash = true) 10 :=
    downClosed_add_le 100 105 10
  have hminorKnown : TopSearch.DownClosed
      (fun h => sameGenesisMinorChain.hasBlock (minorPeerChain h).hash = true) 10 :=
    downClosed_add_le 100 105 10
  exact ⟨findAncestor_finds_top_common.1 sameGenesisRootChain rootPeerChain 10 (rootPeerChain 10)
      (fun _ => number_rootPeerChain) (by norm_num) (by decide) hrootKnown (by decide) (by decide)
      (by decide) (fun _ => by decide),
    findAncestor_finds_top_common.2 sameGenesisMinorChain minorPeerChain 10 (minorPeerChain 10)
      (fun _ => number_minorPeerChain) (by norm_num) (by decide) hminorKnown (by decide)
      (fun _ => by decide)⟩

end Sync

end Cluster
