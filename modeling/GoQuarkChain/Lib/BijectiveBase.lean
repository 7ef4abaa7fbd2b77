import Mathlib

/-!
# Bijective numeration

A nonempty word of digits below `b`, first digit most significant, denotes a
number in which every digit but the last counts one more than its face value:
`value (ds ++ [d]) = b * (value ds + 1) + d`. Read the other way, a number is
split into its last digit `n % b` and the word of `n / b - 1`, until `n / b` is
zero. Every number has exactly one word, and the words of length at most `L`
are those of the numbers below `limit L = b + b ^ 2 + ... + b ^ L`.
-/

namespace BijectiveBase

variable (b : Nat)

/-- The number a nonempty word denotes. -/
def value : List Nat → Nat
  | [] => 0
  | d :: ds => ds.foldl (fun acc d => b * (acc + 1) + d) d

/-- The word of a number, first digit most significant. -/
def digitsOf (n : Nat) : List Nat :=
  if n / b = 0 then [n % b] else digitsOf (n / b - 1) ++ [n % b]
termination_by n
decreasing_by
  have hpos : 0 < n / b := Nat.pos_of_ne_zero ‹_›
  have hle : n / b ≤ n := Nat.div_le_self n b
  omega

/-- What the digits before the last add to a word's value, divided by `b`; they
are listed from the one next to the last. -/
def upperValue : List Nat → Nat
  | [] => 0
  | d :: ds => d + 1 + b * upperValue ds

/-- How many numbers have a word of length at most `L`. -/
def limit : Nat → Nat
  | 0 => 0
  | L + 1 => b * (limit L + 1)

variable {b}

@[simp] theorem value_singleton (d : Nat) : value b [d] = d := rfl

theorem value_append_singleton {ds : List Nat} (hds : ds ≠ []) (d : Nat) :
    value b (ds ++ [d]) = b * (value b ds + 1) + d := by
  obtain ⟨d₀, ds, rfl⟩ := List.exists_cons_of_ne_nil hds
  simp [value]

/-- A word's value read from its last digit up. -/
theorem value_append_singleton_eq (ds : List Nat) (d : Nat) :
    value b (ds ++ [d]) = d + b * upperValue b ds.reverse := by
  induction ds using List.reverseRecOn generalizing d with
  | nil => simp [upperValue]
  | append_singleton ds x ih =>
    rw [value_append_singleton (by simp), ih, List.reverse_append, List.reverse_singleton,
      List.singleton_append, upperValue]
    ring

theorem digitsOf_ne_nil (n : Nat) : digitsOf b n ≠ [] := by
  rw [digitsOf.eq_def]
  split <;> simp

section Positive

variable (hb : 0 < b)
include hb

theorem lt_of_mem_digitsOf {n d : Nat} (hd : d ∈ digitsOf b n) : d < b := by
  induction n using Nat.strong_induction_on with
  | _ n ih =>
    rw [digitsOf.eq_def] at hd
    by_cases h0 : n / b = 0
    · rw [if_pos h0, List.mem_singleton] at hd
      rw [hd]
      exact Nat.mod_lt n hb
    · rw [if_neg h0] at hd
      rcases List.mem_append.mp hd with hd | hd
      · have hpos : 0 < n / b := Nat.pos_of_ne_zero h0
        have hle : n / b ≤ n := Nat.div_le_self n b
        exact ih (n / b - 1) (by omega) hd
      · rw [List.mem_singleton.mp hd]
        exact Nat.mod_lt n hb

/-- Reading a number's word gives the number back. -/
theorem value_digitsOf (n : Nat) : value b (digitsOf b n) = n := by
  induction n using Nat.strong_induction_on with
  | _ n ih =>
    rw [digitsOf.eq_def]
    split
    · rename_i h0
      have hlt : n < b := (Nat.div_eq_zero_iff_lt hb).mp h0
      rw [value_singleton, Nat.mod_eq_of_lt hlt]
    · rename_i h0
      have hpos : 0 < n / b := Nat.pos_of_ne_zero h0
      have hle : n / b ≤ n := Nat.div_le_self n b
      rw [value_append_singleton (digitsOf_ne_nil _), ih (n / b - 1) (by omega),
        Nat.sub_add_cancel hpos]
      exact Nat.div_add_mod n b

/-- A word of digits below `b` is the word of the number it denotes. -/
theorem digitsOf_value {ds : List Nat} (hds : ds ≠ []) (hlt : ∀ d ∈ ds, d < b) :
    digitsOf b (value b ds) = ds := by
  induction ds using List.reverseRecOn with
  | nil => exact absurd rfl hds
  | append_singleton ds d ih =>
    have hd : d < b := hlt d (by simp)
    rcases List.eq_nil_or_concat ds with rfl | ⟨ds', d', rfl⟩
    · rw [List.nil_append, value_singleton, digitsOf.eq_def, if_pos (Nat.div_eq_of_lt hd),
        Nat.mod_eq_of_lt hd]
    · have hne : ds' ++ [d'] ≠ [] := by simp
      have hdiv : (b * (value b (ds' ++ [d']) + 1) + d) / b = value b (ds' ++ [d']) + 1 := by
        rw [Nat.add_comm, Nat.add_mul_div_left _ _ hb, Nat.div_eq_of_lt hd, Nat.zero_add]
      have hmod : (b * (value b (ds' ++ [d']) + 1) + d) % b = d := by
        rw [Nat.add_comm, Nat.add_mul_mod_self_left, Nat.mod_eq_of_lt hd]
      simp only [List.concat_eq_append] at ih hlt ⊢
      rw [value_append_singleton hne, digitsOf.eq_def, hdiv, if_neg (Nat.succ_ne_zero _), hmod,
        Nat.add_sub_cancel, ih hne fun e he => hlt e (List.mem_append_left _ he)]

end Positive

/-- A word of length `L` denotes a number from `limit (L - 1)` up to below `limit L`. -/
theorem value_bounds {ds : List Nat} (hds : ds ≠ []) (hlt : ∀ d ∈ ds, d < b) :
    limit b (ds.length - 1) ≤ value b ds ∧ value b ds < limit b ds.length := by
  induction ds using List.reverseRecOn with
  | nil => exact absurd rfl hds
  | append_singleton ds d ih =>
    have hd : d < b := hlt d (by simp)
    rcases List.eq_nil_or_concat ds with rfl | ⟨ds', d', rfl⟩
    · simp [limit, hd]
    · have hne : ds' ++ [d'] ≠ [] := by simp
      simp only [List.concat_eq_append] at ih hlt ⊢
      obtain ⟨hlo, hhi⟩ := ih hne fun e he => hlt e (List.mem_append_left _ he)
      have hlen : (ds' ++ [d'] ++ [d]).length = (ds' ++ [d']).length + 1 := by simp
      rw [value_append_singleton hne, hlen, Nat.add_sub_cancel]
      have hpos : 0 < (ds' ++ [d']).length := by simp
      obtain ⟨L, hL⟩ : ∃ L, (ds' ++ [d']).length = L + 1 := ⟨_, (Nat.succ_pred_eq_of_pos hpos).symm⟩
      rw [hL] at hlo hhi ⊢
      rw [Nat.add_sub_cancel] at hlo
      constructor
      · calc limit b (L + 1) = b * (limit b L + 1) := rfl
          _ ≤ b * (value b (ds' ++ [d']) + 1) := Nat.mul_le_mul_left b (by omega)
          _ ≤ b * (value b (ds' ++ [d']) + 1) + d := Nat.le_add_right _ _
      · calc b * (value b (ds' ++ [d']) + 1) + d
            < b * (value b (ds' ++ [d']) + 1) + b := by omega
          _ = b * (value b (ds' ++ [d']) + 1 + 1) := by ring
          _ ≤ b * (limit b (L + 1) + 1) := Nat.mul_le_mul_left b (by omega)

theorem limit_mono (hb : 0 < b) {L M : Nat} (h : L ≤ M) : limit b L ≤ limit b M := by
  induction h with
  | refl => exact le_rfl
  | step _ ih =>
    refine ih.trans ?_
    calc _ ≤ limit b _ + 1 := Nat.le_succ _
      _ ≤ b * (limit b _ + 1) := Nat.le_mul_of_pos_left _ hb

/-- A number has a word of length at most `L` exactly when it is below `limit L`. -/
theorem length_digitsOf_le_iff (hb : 0 < b) (n : Nat) {L : Nat} (hL : 0 < L) :
    (digitsOf b n).length ≤ L ↔ n < limit b L := by
  have hbounds := value_bounds (digitsOf_ne_nil n) fun d hd => lt_of_mem_digitsOf hb hd
  rw [value_digitsOf hb] at hbounds
  constructor
  · intro hlen
    exact lt_of_lt_of_le hbounds.2 (limit_mono hb hlen)
  · intro hn
    by_contra hlen
    have hmono := limit_mono hb (L := L) (M := (digitsOf b n).length - 1) (by omega)
    omega

end BijectiveBase
