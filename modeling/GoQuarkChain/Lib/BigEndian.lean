import Mathlib

/-!
# Big-endian byte strings of natural numbers

Two encodings of a natural number as bytes, most significant byte first: the
fixed-width one, which keeps the number modulo `256 ^ k`, and the shortest one,
with no leading zero byte and nothing at all for zero. Reading either back is
one fold over the bytes.

A key-value store orders byte strings bytewise, a proper prefix first. On strings of
one length this is the order of the numbers they denote (`lt_iff_value_lt`), and a
string below another of its length stays below it whatever follows it
(`append_lt_append`).
-/

namespace BigEndian

/-- The `k` low bytes of `n`, most significant first. -/
def fixed : Nat → Nat → List UInt8
  | 0, _ => []
  | k + 1, n => fixed k (n / 256) ++ [UInt8.ofNat (n % 256)]

/-- The shortest encoding within a step budget; `n` steps are always enough. -/
def minimalAux : Nat → Nat → List UInt8
  | 0, _ => []
  | fuel + 1, n => if n = 0 then [] else minimalAux fuel (n / 256) ++ [UInt8.ofNat (n % 256)]

/-- The shortest big-endian encoding: no leading zero byte, empty for zero. -/
def minimal (n : Nat) : List UInt8 := minimalAux n n

/-- The number a big-endian byte string denotes. -/
def value (bs : List UInt8) : Nat := bs.foldl (fun acc b => acc * 256 + b.toNat) 0

theorem foldl_value (acc : Nat) (bs : List UInt8) :
    bs.foldl (fun acc b => acc * 256 + b.toNat) acc = acc * 256 ^ bs.length + value bs := by
  induction bs generalizing acc with
  | nil => simp [value]
  | cons b rest ih =>
    simp only [List.foldl_cons, value, List.length_cons]
    rw [ih, ih (0 * 256 + b.toNat)]
    rw [pow_succ]
    ring

@[simp] theorem value_nil : value [] = 0 := rfl

theorem value_append (xs ys : List UInt8) :
    value (xs ++ ys) = value xs * 256 ^ ys.length + value ys := by
  rw [value, List.foldl_append, foldl_value]
  rfl

theorem value_singleton (b : UInt8) : value [b] = b.toNat := by
  simp [value]

theorem toNat_ofNat_mod (n : Nat) : (UInt8.ofNat (n % 256)).toNat = n % 256 := by
  rw [UInt8.toNat_ofNat']
  omega

@[simp] theorem length_fixed (k n : Nat) : (fixed k n).length = k := by
  induction k generalizing n with
  | zero => rfl
  | succ k ih => simp [fixed, ih]

theorem value_fixed (k n : Nat) : value (fixed k n) = n % 256 ^ k := by
  induction k generalizing n with
  | zero => simp [fixed, Nat.mod_one]
  | succ k ih =>
    rw [fixed, value_append, ih, value_singleton, toNat_ofNat_mod, List.length_singleton,
      pow_one, pow_succ', Nat.mod_mul]
    ring

theorem value_cons (b : UInt8) (bs : List UInt8) :
    value (b :: bs) = b.toNat * 256 ^ bs.length + value bs := by
  rw [show b :: bs = [b] ++ bs from rfl, value_append, value_singleton]

/-- Leading zero bytes do not change the number. -/
theorem value_replicate_zero_append (k : Nat) (bs : List UInt8) :
    value (List.replicate k 0 ++ bs) = value bs := by
  induction k with
  | zero => rfl
  | succ k ih =>
    rw [List.replicate_succ, List.cons_append, value_cons, ih]
    simp

theorem value_lt (bs : List UInt8) : value bs < 256 ^ bs.length := by
  induction bs with
  | nil => simp
  | cons b rest ih =>
    have hb : b.toNat + 1 ≤ 256 := b.toNat_lt
    rw [value_cons, List.length_cons, pow_succ']
    nlinarith

theorem minimalAux_congr {n f₁ f₂ : Nat} (h₁ : n ≤ f₁) (h₂ : n ≤ f₂) :
    minimalAux f₁ n = minimalAux f₂ n := by
  induction f₁ generalizing n f₂ with
  | zero =>
    obtain rfl : n = 0 := by omega
    cases f₂ <;> simp [minimalAux]
  | succ f₁ ih =>
    cases f₂ with
    | zero =>
      obtain rfl : n = 0 := by omega
      simp [minimalAux]
    | succ f₂ =>
      simp only [minimalAux]
      split
      · rfl
      · rw [@ih (n / 256) f₂ (by omega) (by omega)]

theorem minimal_eq (n : Nat) :
    minimal n = if n = 0 then [] else minimal (n / 256) ++ [UInt8.ofNat (n % 256)] := by
  unfold minimal
  cases n with
  | zero => rfl
  | succ m =>
    simp only [minimalAux, Nat.add_one_ne_zero, if_false]
    rw [@minimalAux_congr ((m + 1) / 256) m ((m + 1) / 256) (by omega) le_rfl]

theorem value_minimal (n : Nat) : value (minimal n) = n := by
  induction n using Nat.strong_induction_on with
  | _ n ih =>
    rw [minimal_eq]
    split
    · simp_all
    · rename_i hn
      rw [value_append, ih (n / 256) (by omega), value_singleton, toNat_ofNat_mod]
      simp only [List.length_singleton, pow_one]
      omega

theorem length_minimal_le_iff (n k : Nat) : (minimal n).length ≤ k ↔ n < 256 ^ k := by
  induction k generalizing n with
  | zero =>
    rw [minimal_eq]
    split <;> simp_all
  | succ k ih =>
    rw [minimal_eq]
    split
    · simp_all
    · rename_i hn
      rw [List.length_append, List.length_singleton, Nat.add_le_add_iff_right, ih,
        pow_succ]
      omega

/-- Reading back a number that fits is exact. -/
theorem value_fixed_of_lt {k n : Nat} (h : n < 256 ^ k) : value (fixed k n) = n := by
  rw [value_fixed, Nat.mod_eq_of_lt h]

/-- Writing a string's number back at the string's own width gives the string. -/
theorem fixed_value (bs : List UInt8) : fixed bs.length (value bs) = bs := by
  induction bs using List.reverseRecOn with
  | nil => rfl
  | append_singleton xs b ih =>
    have hb := b.toNat_lt
    have hsplit : value (xs ++ [b]) = value xs * 256 + b.toNat := by
      rw [value_append, value_singleton, List.length_singleton, pow_one]
    have hdiv : value (xs ++ [b]) / 256 = value xs := by omega
    have hmod : value (xs ++ [b]) % 256 = b.toNat := by omega
    rw [List.length_append, List.length_singleton, fixed, hdiv, hmod, ih, UInt8.ofNat_toNat]

theorem length_minimal_eq {n k : Nat} (hlo : 256 ^ k ≤ n) (hhi : n < 256 ^ (k + 1)) :
    (minimal n).length = k + 1 := by
  have hle := (length_minimal_le_iff n (k + 1)).mpr hhi
  have hgt : ¬(minimal n).length ≤ k := fun h => absurd ((length_minimal_le_iff n k).mp h) (by omega)
  omega

/-- The leading digit decides the order of two numbers whose lower parts are below
the base. -/
theorem mul_add_lt_mul_add_iff {P x y a b : Nat} (ha : a < P) (hb : b < P) :
    x * P + a < y * P + b ↔ x < y ∨ x = y ∧ a < b := by
  constructor
  · intro h
    rcases Nat.lt_trichotomy x y with hxy | rfl | hxy
    · exact .inl hxy
    · exact .inr ⟨rfl, by omega⟩
    · have hmul : (y + 1) * P ≤ x * P := Nat.mul_le_mul_right P hxy
      rw [Nat.add_mul, Nat.one_mul] at hmul
      omega
  · rintro (hxy | ⟨rfl, hab⟩)
    · have hmul : (x + 1) * P ≤ y * P := Nat.mul_le_mul_right P hxy
      rw [Nat.add_mul, Nat.one_mul] at hmul
      omega
    · omega

theorem lt_iff_value_lt {xs ys : List UInt8} (h : xs.length = ys.length) :
    xs < ys ↔ value xs < value ys := by
  induction xs generalizing ys with
  | nil =>
    obtain rfl : ys = [] := List.length_eq_zero_iff.mp h.symm
    simp only [value_nil, Nat.lt_irrefl, iff_false]
    exact List.lt_irrefl _
  | cons x xs ih =>
    obtain ⟨y, ys, rfl⟩ := List.exists_cons_of_length_eq_add_one h.symm
    have hlen : xs.length = ys.length := by simpa using h
    have hx : value xs < 256 ^ ys.length := hlen ▸ value_lt xs
    rw [List.cons_lt_cons_iff, value_cons, value_cons, hlen, ih hlen,
      mul_add_lt_mul_add_iff hx (value_lt ys), UInt8.lt_iff_toNat_lt, ← UInt8.toNat_inj]

theorem le_iff_value_le {xs ys : List UInt8} (h : xs.length = ys.length) :
    xs ≤ ys ↔ value xs ≤ value ys := by
  rw [← List.not_lt, lt_iff_value_lt h.symm, Nat.not_lt]

theorem append_lt_append {xs ys : List UInt8} (h : xs.length = ys.length) (hlt : xs < ys)
    (zs ws : List UInt8) : xs ++ zs < ys ++ ws := by
  induction xs generalizing ys with
  | nil =>
    obtain rfl : ys = [] := List.length_eq_zero_iff.mp h.symm
    exact absurd hlt (List.lt_irrefl _)
  | cons x xs ih =>
    obtain ⟨y, ys, rfl⟩ := List.exists_cons_of_length_eq_add_one h.symm
    have hlen : xs.length = ys.length := by simpa using h
    rw [List.cons_append, List.cons_append, List.cons_lt_cons_iff]
    rcases List.cons_lt_cons_iff.mp hlt with hxy | ⟨rfl, hxs⟩
    · exact .inl hxy
    · exact .inr ⟨rfl, ih hlen hxs⟩

end BigEndian
