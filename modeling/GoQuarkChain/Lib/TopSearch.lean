import Mathlib

/-!
# Searching an interval for the top of a down-closed set

A set `P` of heights is down-closed up to `hi` when it holds below every height up to
`hi` where it holds, so its heights in `[lo, hi]` are an initial segment of the interval. A search for the
greatest of them keeps a bracket `[start, top)`: no height from `top` up to `hi` is in
`P`, and the best height found so far is `start - 1`, none while `start = lo`. A sample
of the bracket outside `P` lowers `top` to it (`Bracket.miss`); a sample in `P` raises
`start` above it (`Bracket.hit`). An empty bracket holds the answer as its best height
(`Bracket.isTop_of_le`), and so does a bracket whose last height is in `P`
(`Bracket.isTop_last`).
-/

namespace TopSearch

/-- `P` holds below every height up to `hi` where it holds. -/
def DownClosed (P : Nat → Prop) (hi : Nat) : Prop := ∀ ⦃h h'⦄, h' ≤ h → h ≤ hi → P h → P h'

/-- `r` is the greatest height of `[lo, hi]` in `P`, or `none` when there is none. -/
def IsTop (P : Nat → Prop) (lo hi : Nat) : Option Nat → Prop
  | some k => lo ≤ k ∧ k ≤ hi ∧ P k ∧ ∀ h, k < h → h ≤ hi → ¬P h
  | none => ∀ h, lo ≤ h → h ≤ hi → ¬P h

/-- The best height so far: none at the start of the interval, else the height just
below `start`, in `P`. -/
def Below (P : Nat → Prop) (lo start : Nat) : Option Nat → Prop
  | none => start = lo
  | some k => k + 1 = start ∧ lo ≤ k ∧ P k

/-- The bracket `[start, top)` of a search of `[lo, hi]` for the top of `P`, with the
best height found so far. -/
structure Bracket (P : Nat → Prop) (lo hi start top : Nat) (best : Option Nat) : Prop where
  lo_le : lo ≤ start
  le_top : start ≤ top
  top_le : top ≤ hi + 1
  above : ∀ h, top ≤ h → h ≤ hi → ¬P h
  below : Below P lo start best

variable {P : Nat → Prop} {lo hi start top h : Nat} {best : Option Nat}

theorem DownClosed.mono {hi' : Nat} (hP : DownClosed P hi) (hle : hi' ≤ hi) : DownClosed P hi' :=
  fun _ _ hh' hh hp => hP hh' (Nat.le_trans hh hle) hp

theorem isTop_none_of_lt (hlt : hi < lo) : IsTop P lo hi none := by
  intro h hlo hhi
  omega

theorem bracket_init (hle : lo ≤ hi + 1) : Bracket P lo hi lo (hi + 1) none where
  lo_le := Nat.le_refl lo
  le_top := hle
  top_le := Nat.le_refl _
  above := fun h htop hhi => by omega
  below := rfl

/-- A sample outside `P` is the new top: nothing above it is in `P` either. -/
theorem Bracket.miss (hb : Bracket P lo hi start top best) (hP : DownClosed P hi)
    (hs : start ≤ h) (ht : h < top) (hh : ¬P h) : Bracket P lo hi start h best where
  lo_le := hb.lo_le
  le_top := hs
  top_le := by
    have := hb.top_le
    omega
  above := fun _ hle hhi hp => hh (hP hle hhi hp)
  below := hb.below

/-- A sample in `P` is the new best height. -/
theorem Bracket.hit (hb : Bracket P lo hi start top best) (hs : start ≤ h) (ht : h < top)
    (hh : P h) : Bracket P lo hi (h + 1) top (some h) where
  lo_le := by
    have := hb.lo_le
    omega
  le_top := ht
  top_le := hb.top_le
  above := hb.above
  below := ⟨rfl, Nat.le_trans hb.lo_le hs, hh⟩

/-- An empty bracket: the best height so far is the top. -/
theorem Bracket.isTop_of_le (hb : Bracket P lo hi start top best) (hle : top ≤ start) :
    IsTop P lo hi best := by
  have htop : top = start := Nat.le_antisymm hle hb.le_top
  have hhi := hb.top_le
  cases best with
  | none =>
    have hstart : start = lo := hb.below
    intro h hlo hh
    exact hb.above h (by omega) hh
  | some k =>
    obtain ⟨hk, hlo, hP⟩ : k + 1 = start ∧ lo ≤ k ∧ P k := hb.below
    exact ⟨hlo, by omega, hP, fun h hkh hh => hb.above h (by omega) hh⟩

/-- A bracket whose last height is in `P`: that height is the top. -/
theorem Bracket.isTop_last (hb : Bracket P lo hi start top best) (hlt : start < top)
    (hP : P (top - 1)) : IsTop P lo hi (some (top - 1)) := by
  have hlo := hb.lo_le
  have hhi := hb.top_le
  exact ⟨by omega, by omega, hP, fun h hh hle => hb.above h (by omega) hle⟩

end TopSearch
