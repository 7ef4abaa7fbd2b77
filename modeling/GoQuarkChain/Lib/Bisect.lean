import Mathlib

/-!
# Bisection for the first passing point

`search p fuel lo hi` narrows the range `(lo, hi]` by testing its midpoint: a pass
moves `hi` down to it, a failure moves `lo` up to it, and once no point is left
between them it returns `hi`. Neither end is tested: `lo` is taken to fail and
`hi` to pass or to close the range. `firstPass p lo hi` is the first point strictly
between the two that passes, or `hi` when none does.

A test that passes nowhere inside the range leaves `hi` (`search_eq_hi`); a test
monotone on the range gives `firstPass` (`search_eq_firstPass`). Each step at least
halves the range, so `k + 1` steps finish a range of length `2 ^ k`.
-/

namespace Bisect

variable (p : ℕ → Bool)

/-- Bisection of `(lo, hi]` with at most `fuel` steps. -/
def search : ℕ → ℕ → ℕ → Option ℕ
  | 0, _, _ => none
  | fuel + 1, lo, hi =>
    if lo + 1 < hi then
      if p ((lo + hi) / 2) then search fuel lo ((lo + hi) / 2) else search fuel ((lo + hi) / 2) hi
    else some hi

/-- The first point strictly between `lo` and `hi` that passes, else `hi`. -/
def firstPass (lo hi : ℕ) : ℕ := ((List.range' (lo + 1) (hi - (lo + 1))).find? p).getD hi

variable {p}

theorem search_succ_of_le {fuel lo hi : ℕ} (h : hi ≤ lo + 1) :
    search p (fuel + 1) lo hi = some hi := by
  rw [search, if_neg (by omega)]

theorem search_succ_pass {fuel lo hi : ℕ} (h : lo + 1 < hi) (hp : p ((lo + hi) / 2) = true) :
    search p (fuel + 1) lo hi = search p fuel lo ((lo + hi) / 2) := by
  rw [search, if_pos h, if_pos hp]

theorem search_succ_fail {fuel lo hi : ℕ} (h : lo + 1 < hi) (hp : p ((lo + hi) / 2) = false) :
    search p (fuel + 1) lo hi = search p fuel ((lo + hi) / 2) hi := by
  rw [search, if_pos h, hp, if_neg Bool.false_ne_true]

/-- The points strictly between `lo` and `hi`, split at a point `m` between them. -/
theorem range'_split {lo m hi : ℕ} (hlo : lo < m) (hm : m < hi) :
    List.range' (lo + 1) (hi - (lo + 1)) =
      List.range' (lo + 1) (m - (lo + 1)) ++ m :: List.range' (m + 1) (hi - (m + 1)) := by
  have hlen : hi - (lo + 1) = (m - (lo + 1)) + ((hi - (m + 1)) + 1) := by omega
  have hstart : lo + 1 + 1 * (m - (lo + 1)) = m := by omega
  rw [hlen, ← List.range'_append, hstart, List.range'_succ]

theorem find?_range'_eq_none {lo m : ℕ} (h : ∀ n, lo < n → n < m → p n = false) :
    (List.range' (lo + 1) (m - (lo + 1))).find? p = none := by
  rw [List.find?_eq_none]
  intro n hn
  rw [List.mem_range'_1] at hn
  rw [h n (by omega) (by omega)]
  exact Bool.false_ne_true

theorem firstPass_of_le {lo hi : ℕ} (h : hi ≤ lo + 1) : firstPass p lo hi = hi := by
  rw [firstPass, Nat.sub_eq_zero_of_le h, List.range'_zero, List.find?_nil, Option.getD_none]

theorem firstPass_eq_hi {lo hi : ℕ} (h : ∀ n, lo < n → n < hi → p n = false) :
    firstPass p lo hi = hi := by
  rw [firstPass, find?_range'_eq_none h, Option.getD_none]

/-- A pass at a point `m` of the range settles the first pass below it. -/
theorem firstPass_of_pass {lo m hi : ℕ} (hlo : lo < m) (hm : m < hi) (hp : p m = true) :
    firstPass p lo hi = firstPass p lo m := by
  rw [firstPass, firstPass, range'_split hlo hm, List.find?_append, List.find?_cons_of_pos hp]
  cases (List.range' (lo + 1) (m - (lo + 1))).find? p <;> rfl

/-- A test monotone on a set that fails at `m` fails at every point of it below `m`. -/
theorem eq_false_of_le {t : Set ℕ} (hmono : MonotoneOn p t) {n m : ℕ} (hn : n ∈ t) (hm : m ∈ t)
    (hnm : n ≤ m) (hp : p m = false) : p n = false := by
  have hle := hmono hn hm hnm
  cases hpn : p n with
  | false => rfl
  | true =>
    rw [hpn, hp] at hle
    exact absurd hle (by decide)

/-- For a test monotone on the range, a failure at a point `m` of it moves the search
above it. -/
theorem firstPass_of_fail {lo m hi : ℕ} (hmono : MonotoneOn p (Set.Ioo lo hi)) (hlo : lo < m)
    (hm : m < hi) (hp : p m = false) : firstPass p lo hi = firstPass p m hi := by
  have hbelow : ∀ n, lo < n → n < m → p n = false :=
    fun n hn hnm => eq_false_of_le hmono ⟨hn, by omega⟩ ⟨hlo, hm⟩ hnm.le hp
  rw [firstPass, firstPass, range'_split hlo hm, List.find?_append, find?_range'_eq_none hbelow,
    List.find?_cons_of_neg (by rw [hp]; exact Bool.false_ne_true)]
  rfl

theorem firstPass_eq_of_least {lo g hi : ℕ} (hlo : lo < g) (hg : g < hi) (hp : p g = true)
    (hleast : ∀ n, lo < n → n < g → p n = false) : firstPass p lo hi = g := by
  rw [firstPass_of_pass hlo hg hp, firstPass_eq_hi hleast]

/-- The two halves a step can leave are at most half the range, rounded up. -/
theorem half_le {lo hi k : ℕ} (hlen : hi - lo ≤ 2 ^ (k + 1)) :
    (lo + hi) / 2 - lo ≤ 2 ^ k ∧ hi - (lo + hi) / 2 ≤ 2 ^ k := by
  rw [pow_succ] at hlen
  omega

/-- With a test monotone on the range and enough steps the search finds the first
pass. Each half of the range keeps the monotonicity. -/
theorem search_eq_firstPass {k fuel lo hi : ℕ} (hmono : MonotoneOn p (Set.Ioo lo hi))
    (hlen : hi - lo ≤ 2 ^ k) (hk : k < fuel) : search p fuel lo hi = some (firstPass p lo hi) := by
  obtain ⟨fuel, rfl⟩ : ∃ f, fuel = f + 1 := ⟨fuel - 1, by omega⟩
  induction k generalizing fuel lo hi with
  | zero =>
    have hle : hi ≤ lo + 1 := by rw [pow_zero] at hlen; omega
    rw [search_succ_of_le hle, firstPass_of_le hle]
  | succ k ih =>
    by_cases hrange : lo + 1 < hi
    · obtain ⟨fuel, rfl⟩ : ∃ f, fuel = f + 1 := ⟨fuel - 1, by omega⟩
      obtain ⟨hleft, hright⟩ := half_le hlen
      have hlo : lo < (lo + hi) / 2 := by omega
      have hmid : (lo + hi) / 2 < hi := by omega
      have hmonoLeft := hmono.mono (Set.Ioo_subset_Ioo_right hmid.le)
      have hmonoRight := hmono.mono (Set.Ioo_subset_Ioo_left hlo.le)
      cases hp : p ((lo + hi) / 2) with
      | true =>
        rw [search_succ_pass hrange hp, ih hmonoLeft hleft fuel (by omega),
          firstPass_of_pass hlo hmid hp]
      | false =>
        rw [search_succ_fail hrange hp, ih hmonoRight hright fuel (by omega),
          firstPass_of_fail hmono hlo hmid hp]
    · rw [search_succ_of_le (by omega), firstPass_of_le (by omega)]

/-- A test that passes nowhere strictly inside the range leaves `hi`, monotone or not. -/
theorem search_eq_hi {k fuel lo hi : ℕ} (hfail : ∀ n, lo < n → n < hi → p n = false)
    (hlen : hi - lo ≤ 2 ^ k) (hk : k < fuel) : search p fuel lo hi = some hi := by
  obtain ⟨fuel, rfl⟩ : ∃ f, fuel = f + 1 := ⟨fuel - 1, by omega⟩
  induction k generalizing fuel lo with
  | zero => rw [search_succ_of_le (by rw [pow_zero] at hlen; omega)]
  | succ k ih =>
    by_cases hrange : lo + 1 < hi
    · obtain ⟨fuel, rfl⟩ : ∃ f, fuel = f + 1 := ⟨fuel - 1, by omega⟩
      have hp := hfail ((lo + hi) / 2) (by omega) (by omega)
      rw [search_succ_fail hrange hp]
      exact ih (fun n hn hnh => hfail n (by omega) hnh) (half_le hlen).2 fuel (by omega)
    · rw [search_succ_of_le (by omega)]

end Bisect
