import GoQuarkChain.Core.MinorBlockChain

/-!
# Difficulty adjustment

`EthDifficultyCalculator.CalculateDifficulty` raises the parent's difficulty by
`D / AdjustmentFactor` times a sign that falls by one for every
`AdjustmentCutoff` seconds since the parent, from `1` down to `-99`, and never
returns less than `MinimumDifficulty`. `VerifyHeader` accepts a header only when
its time is after the parent's and its difficulty is the calculated one.

Difficulties are `big.Int`s, here `Int`, and `big.Int.Div` is Euclidean like
`Int` division. Times are `uint64`: the one subtraction happens after the check
that rules out its wrapping. A zero cutoff or factor divides by zero, which
panics.
-/

namespace Consensus

open Core

/-- What `CalculateDifficulty` reads of the parent header. -/
structure ParentHeader where
  time : Nat
  difficulty : Int

/-- `EthDifficultyCalculator`. -/
structure EthDifficultyCalculator where
  adjustmentCutoff : Nat
  adjustmentFactor : Nat
  minimumDifficulty : Int

def errPreTime : String := "parent time is smaller than time for CalculateDifficulty"

namespace EthDifficultyCalculator

variable (c : EthDifficultyCalculator)

/-- `CalculateDifficulty`. -/
def calculateDifficulty (parent : ParentHeader) (time : Nat) : Except Failure Int :=
  if parent.time > time then .error (.error errPreTime)
  else if c.adjustmentCutoff = 0 then .error (.panic "runtime error: integer divide by zero")
  else
    let sign : Int := 1 - ((time - parent.time) / c.adjustmentCutoff : Nat)
    let sign := if sign < -99 then -99 else sign
    if c.adjustmentFactor = 0 then .error (.panic "division by zero")
    else
      let offset := parent.difficulty / (c.adjustmentFactor : Int)
      let diff := parent.difficulty + offset * sign
      if diff < c.minimumDifficulty then .ok c.minimumDifficulty else .ok diff

/-- The time and difficulty checks of `CommonEngine.VerifyHeader`. -/
def verifyDifficulty (parent : ParentHeader) (headerTime : Nat) (headerDifficulty : Int) :
    Except Failure Unit :=
  if headerTime ≤ parent.time then
    .error (.error s!"incorrect create time tip time {headerTime}, new block time {parent.time}")
  else do
    let expectedDiff ← c.calculateDifficulty parent headerTime
    if expectedDiff ≠ headerDifficulty then
      .error (.error s!"invalid difficulty: have {headerDifficulty}, want {expectedDiff}")
    else pure ()

/-! ## The adjustment as a function of time -/

/-- The adjustment multiplier `t` seconds after the parent. -/
def sign (t : Nat) : Int := max (-99) (1 - ((t / c.adjustmentCutoff : Nat) : Int))

/-- The difficulty `t` seconds after a parent of difficulty `d`. -/
def expected (d : Int) (t : Nat) : Int :=
  max c.minimumDifficulty (d + d / (c.adjustmentFactor : Int) * c.sign t)

/-- More time never raises the multiplier. -/
theorem sign_antitone : Antitone c.sign := by
  intro t₁ t₂ ht
  have hq : t₁ / c.adjustmentCutoff ≤ t₂ / c.adjustmentCutoff := Nat.div_le_div_right ht
  have hq' : ((t₁ / c.adjustmentCutoff : Nat) : Int) ≤ ((t₂ / c.adjustmentCutoff : Nat) : Int) :=
    Int.ofNat_le.mpr hq
  exact max_le_max le_rfl (by omega)

/-- Over a parent of nonnegative difficulty, more time never raises the difficulty. -/
theorem expected_antitone {d : Int} (hd : 0 ≤ d) : Antitone (c.expected d) := by
  intro t₁ t₂ ht
  have hoffset : 0 ≤ d / (c.adjustmentFactor : Int) := Int.ediv_nonneg hd (Int.natCast_nonneg _)
  exact max_le_max le_rfl
    (Int.add_le_add_left (Int.mul_le_mul_of_nonneg_left (c.sign_antitone ht) hoffset) d)

theorem minimumDifficulty_le_expected (d : Int) (t : Nat) : c.minimumDifficulty ≤ c.expected d t :=
  le_max_left _ _

section Positive

variable {c} (hcutoff : 0 < c.adjustmentCutoff) (hfactor : 0 < c.adjustmentFactor)
include hcutoff hfactor

/-- From the parent's time on, `CalculateDifficulty` computes the adjustment. -/
theorem calculateDifficulty_eq {parent : ParentHeader} {time : Nat} (htime : parent.time ≤ time) :
    c.calculateDifficulty parent time = .ok (c.expected parent.difficulty (time - parent.time)) := by
  have hsign : (if (1 - (((time - parent.time) / c.adjustmentCutoff : Nat) : Int)) < -99 then -99
      else 1 - (((time - parent.time) / c.adjustmentCutoff : Nat) : Int)) =
      c.sign (time - parent.time) := by
    unfold sign
    split_ifs with h
    · exact (max_eq_left h.le).symm
    · exact (max_eq_right (not_lt.mp h)).symm
  unfold calculateDifficulty expected
  rw [if_neg (Nat.not_lt.mpr htime), if_neg (Nat.pos_iff_ne_zero.mp hcutoff)]
  dsimp only
  rw [hsign, if_neg (Nat.pos_iff_ne_zero.mp hfactor)]
  split_ifs with h
  · rw [max_eq_left h.le]
  · rw [max_eq_right (not_lt.mp h)]

/-- A header that passes the checks carries the adjustment of its parent's difficulty. -/
theorem verifyDifficulty_ok {parent : ParentHeader} {headerTime : Nat} {headerDifficulty : Int}
    (h : c.verifyDifficulty parent headerTime headerDifficulty = .ok ()) :
    parent.time < headerTime ∧
      headerDifficulty = c.expected parent.difficulty (headerTime - parent.time) := by
  unfold verifyDifficulty at h
  split_ifs at h with htime
  have hlt : parent.time < headerTime := Nat.lt_of_not_le htime
  rw [calculateDifficulty_eq hcutoff hfactor hlt.le] at h
  refine ⟨hlt, ?_⟩
  by_contra hne
  simp [Ne.symm hne] at h

end Positive

/-- With the root chain's defaults, a header ten seconds after a parent of difficulty
`2000000` passes with `2001953`, one 1024th above. -/
theorem verifyDifficulty_ok_root :
    (mk 40 1024 1000000).verifyDifficulty ⟨1000, 2000000⟩ 1010 2001953 = .ok () ∧
      1000 < 1010 ∧ 2001953 = (mk 40 1024 1000000).expected 2000000 (1010 - 1000) := by
  have hverify : (mk 40 1024 1000000).verifyDifficulty ⟨1000, 2000000⟩ 1010 2001953 = .ok () :=
    rfl
  exact ⟨hverify, verifyDifficulty_ok (by decide) (by decide) hverify⟩

theorem calculateDifficulty_of_lt {parent : ParentHeader} {time : Nat} (htime : time < parent.time) :
    c.calculateDifficulty parent time = .error (.error errPreTime) := by
  unfold calculateDifficulty
  rw [if_pos htime]

/-- For a parent of nonnegative difficulty and a positive cutoff and factor,
`CalculateDifficulty` fails before the parent's time, and from then on returns
at least `MinimumDifficulty`, the clamped adjustment, and never more at a later time. -/
theorem calculateDifficulty_bounded_antitone (parent : ParentHeader) (hd : 0 ≤ parent.difficulty)
    (hcutoff : 0 < c.adjustmentCutoff) (hfactor : 0 < c.adjustmentFactor) :
    (∀ t, t < parent.time → c.calculateDifficulty parent t = .error (.error errPreTime)) ∧
    (∀ t, parent.time ≤ t → ∃ diff, c.calculateDifficulty parent t = .ok diff ∧
      c.minimumDifficulty ≤ diff ∧
      diff = max c.minimumDifficulty (parent.difficulty + parent.difficulty /
        (c.adjustmentFactor : Int) * max (-99) (1 - (((t - parent.time) / c.adjustmentCutoff : Nat) : Int)))) ∧
    (∀ t₁ t₂, parent.time ≤ t₁ → t₁ ≤ t₂ → ∃ d₁ d₂, c.calculateDifficulty parent t₁ = .ok d₁ ∧
      c.calculateDifficulty parent t₂ = .ok d₂ ∧ d₂ ≤ d₁) := by
  refine ⟨fun t ht => c.calculateDifficulty_of_lt ht, fun t ht => ?_, fun t₁ t₂ h₁ h₁₂ => ?_⟩
  · exact ⟨_, calculateDifficulty_eq hcutoff hfactor ht, c.minimumDifficulty_le_expected _ _, rfl⟩
  · refine ⟨_, _, calculateDifficulty_eq hcutoff hfactor h₁,
      calculateDifficulty_eq hcutoff hfactor (h₁.trans h₁₂), ?_⟩
    exact c.expected_antitone hd (Nat.sub_le_sub_right h₁₂ parent.time)

/-- The root chain's defaults: a 40-second cutoff and a factor of 1024. -/
theorem calculateDifficulty_bounded_antitone_root :
    (∀ t, t < 1000 → (mk 40 1024 1000000).calculateDifficulty ⟨1000, 2000000⟩ t =
      .error (.error errPreTime)) ∧
    (∀ t, 1000 ≤ t → ∃ diff, (mk 40 1024 1000000).calculateDifficulty ⟨1000, 2000000⟩ t = .ok diff ∧
      1000000 ≤ diff ∧
      diff = max 1000000 (2000000 + 2000000 / ((1024 : Nat) : Int) *
        max (-99) (1 - (((t - 1000) / 40 : Nat) : Int)))) ∧
    (∀ t₁ t₂, 1000 ≤ t₁ → t₁ ≤ t₂ → ∃ d₁ d₂,
      (mk 40 1024 1000000).calculateDifficulty ⟨1000, 2000000⟩ t₁ = .ok d₁ ∧
      (mk 40 1024 1000000).calculateDifficulty ⟨1000, 2000000⟩ t₂ = .ok d₂ ∧ d₂ ≤ d₁) :=
  calculateDifficulty_bounded_antitone ⟨40, 1024, 1000000⟩ ⟨1000, 2000000⟩ (by decide) (by decide)
    (by decide)

end EthDifficultyCalculator

end Consensus
