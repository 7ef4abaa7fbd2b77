import Mathlib

/-!
# Merkle roots level by level

A list of hashes is reduced to one by combining adjacent pairs with `node`, level
after level. The reference pads the leaves once, with a zero hash `z`, up to the
least power of two `2 ^ k` that holds them, and pairs up `k` times. The lazy loop
pads a level only when its length is odd, and then with the root of an all-zero
subtree as high as the level, which it carries along and doubles at each level.
Both give the same root (`lazyRoot_eq_paddedRoot`).
-/

namespace MerkleLevels

variable {α : Type*} (node : α → α → α)

/-- Combine adjacent pairs; a last hash without a partner is dropped. -/
def pairUp : List α → List α
  | [] => []
  | [_] => []
  | a :: b :: rest => node a b :: pairUp rest

/-- The root of an all-zero subtree of height `k` over the zero hash `z`. -/
def zeroRoot : α → Nat → α
  | z, 0 => z
  | z, k + 1 => zeroRoot (node z z) k

/-- `k` levels of pairing, then the one hash left. -/
def rootOfLevels : Nat → List α → Option α
  | 0, l => l.head?
  | k + 1, l => rootOfLevels k (pairUp node l)

/-- The leaves padded with `z` to the next power of two, paired up to one hash. -/
def paddedRoot (z : α) (leaves : List α) : Option α :=
  rootOfLevels node (Nat.clog 2 leaves.length)
    (leaves ++ List.replicate (2 ^ Nat.clog 2 leaves.length - leaves.length) z)

/-- A level of odd length gets the zero subtree's root `z` appended. -/
def padOdd (z : α) (l : List α) : List α := if l.length % 2 = 1 then l ++ [z] else l

/-- One round of the lazy loop on a level and its zero-subtree root. -/
def lazyStep (s : List α × α) : List α × α := (pairUp node (padOdd s.2 s.1), node s.2 s.2)

/-- The lazy loop within `fuel` rounds: stop at one hash, else run a round. -/
def lazyRoot : Nat → List α × α → Option α
  | 0, _ => none
  | fuel + 1, s => if s.1.length = 1 then s.1.head? else lazyRoot fuel (lazyStep node s)

/-- `2 ^ k` is the least power of two that holds `n` hashes: `k` levels are left. -/
def Fits (k n : Nat) : Prop := n ≤ 2 ^ k ∧ 2 ^ k < 2 * n

variable {node}

@[simp] theorem length_pairUp (l : List α) : (pairUp node l).length = l.length / 2 := by
  induction l using pairUp.induct with
  | case1 => simp [pairUp]
  | case2 a => simp [pairUp]
  | case3 a b rest ih =>
    simp only [pairUp, List.length_cons, ih]
    omega

theorem length_pairUp_padOdd (z : α) (l : List α) :
    (pairUp node (padOdd z l)).length = (l.length + 1) / 2 := by
  unfold padOdd
  split_ifs with hodd
  · rw [length_pairUp, List.length_append, List.length_singleton]
  · rw [length_pairUp]
    omega

theorem pairUp_append {l₁ : List α} (h : l₁.length % 2 = 0) (l₂ : List α) :
    pairUp node (l₁ ++ l₂) = pairUp node l₁ ++ pairUp node l₂ := by
  induction l₁ using pairUp.induct with
  | case1 => rfl
  | case2 a => simp at h
  | case3 a b rest ih =>
    have hrest : rest.length % 2 = 0 := by simp only [List.length_cons] at h; omega
    simp only [List.cons_append, pairUp, ih hrest]

theorem pairUp_replicate (m : Nat) (z : α) :
    pairUp node (List.replicate (2 * m) z) = List.replicate m (node z z) := by
  induction m with
  | zero => rfl
  | succ m ih =>
    rw [show 2 * (m + 1) = 2 * m + 1 + 1 by omega]
    simp only [List.replicate_succ, pairUp, ih]

/-- An all-zero list of `2 ^ k` hashes pairs up to the root of a zero subtree. -/
theorem rootOfLevels_replicate (k : Nat) (z : α) :
    rootOfLevels node k (List.replicate (2 ^ k) z) = some (zeroRoot node z k) := by
  induction k generalizing z with
  | zero => rfl
  | succ k ih =>
    rw [rootOfLevels, Nat.pow_succ, Nat.mul_comm, pairUp_replicate, ih, zeroRoot]

theorem exists_rootOfLevels {k : Nat} {l : List α} (h : l.length = 2 ^ k) :
    ∃ r, rootOfLevels node k l = some r := by
  induction k generalizing l with
  | zero =>
    match l, h with
    | [a], _ => exact ⟨a, rfl⟩
  | succ k ih =>
    have hhalf : (pairUp node l).length = 2 ^ k := by
      rw [length_pairUp, h, Nat.pow_succ, Nat.mul_div_cancel _ Nat.two_pos]
    exact ih hhalf

/-- After `j` rounds the loop carries the root of an all-zero subtree of height `j`. -/
theorem lazyStep_iterate_snd (j : Nat) (s : List α × α) :
    ((lazyStep node)^[j] s).2 = zeroRoot node s.2 j := by
  induction j generalizing s with
  | zero => rfl
  | succ j ih => rw [Function.iterate_succ_apply, ih, lazyStep, zeroRoot]

/-- Pairing a level padded with zeros to `2 ^ (k + 1)` is pairing the level padded
only to even length, then padding with zero-subtree roots to `2 ^ k`. -/
theorem pairUp_append_replicate {l : List α} {k : Nat} (hl : l.length ≤ 2 ^ (k + 1)) (z : α) :
    pairUp node (l ++ List.replicate (2 ^ (k + 1) - l.length) z) =
      pairUp node (padOdd z l) ++
        List.replicate (2 ^ k - (pairUp node (padOdd z l)).length) (node z z) := by
  have hpow : 2 ^ (k + 1) = 2 * 2 ^ k := by rw [Nat.pow_succ, Nat.mul_comm]
  rw [length_pairUp_padOdd]
  unfold padOdd
  split_ifs with hodd
  · -- an odd level is shorter than `2 ^ (k + 1)`: its first zero is the odd pad
    obtain ⟨m, hm⟩ : ∃ m, 2 ^ (k + 1) - l.length = 2 * m + 1 :=
      ⟨(2 ^ (k + 1) - l.length) / 2, by omega⟩
    have hlen : (l ++ [z]).length % 2 = 0 := by simp; omega
    rw [hm, List.replicate_succ, List.append_cons, pairUp_append hlen, pairUp_replicate]
    congr 2
    omega
  · obtain ⟨m, hm⟩ : ∃ m, 2 ^ (k + 1) - l.length = 2 * m :=
      ⟨(2 ^ (k + 1) - l.length) / 2, by omega⟩
    rw [hm, pairUp_append (by omega), pairUp_replicate]
    congr 2
    omega

theorem Fits.zero {n : Nat} (h : Fits 0 n) : n = 1 := by
  unfold Fits at h
  omega

theorem Fits.ne_one {k n : Nat} (h : Fits (k + 1) n) : n ≠ 1 := by
  have := Nat.one_le_two_pow (n := k)
  unfold Fits at h
  rw [Nat.pow_succ] at h
  omega

/-- A round halves the level, rounding up: one level fewer is left. -/
theorem Fits.next {k : Nat} {s : List α × α} (h : Fits (k + 1) s.1.length) :
    Fits k (lazyStep node s).1.length := by
  unfold Fits at h ⊢
  rw [lazyStep, length_pairUp_padOdd]
  rw [Nat.pow_succ] at h
  omega

theorem Fits.lt {k n : Nat} (h : Fits k n) : k < n := by
  cases k with
  | zero => rw [h.zero]; exact Nat.one_pos
  | succ k =>
    have hk : k < 2 ^ k := Nat.lt_two_pow_self
    unfold Fits at h
    rw [Nat.pow_succ] at h
    omega

theorem fits_clog {n : Nat} (hn : 0 < n) : Fits (Nat.clog 2 n) n := by
  refine ⟨Nat.le_pow_clog Nat.one_lt_two n, ?_⟩
  rcases Nat.lt_or_ge 1 n with h | h
  · -- above one hash, the power below `2 ^ clog` is already too small
    have hlt := Nat.pow_pred_clog_lt_self Nat.one_lt_two h
    have hpos := Nat.clog_pos Nat.one_lt_two h
    rw [← Nat.succ_pred_eq_of_pos hpos, Nat.pow_succ]
    omega
  · rw [show n = 1 by omega, Nat.clog_one_right]
    decide

/-- From a level that needs `k` more levels, the lazy loop, given more than `k`
rounds, ends where `k` levels over the zero-padded level end. -/
theorem lazyRoot_eq (k : Nat) {s : List α × α} {fuel : Nat} (hfuel : k < fuel)
    (hfits : Fits k s.1.length) :
    lazyRoot node fuel s = rootOfLevels node k (s.1 ++ List.replicate (2 ^ k - s.1.length) s.2) := by
  induction k generalizing s fuel with
  | zero =>
    obtain ⟨fuel, rfl⟩ : ∃ f, fuel = f + 1 := ⟨fuel - 1, by omega⟩
    rw [lazyRoot, if_pos hfits.zero, hfits.zero]
    simp [rootOfLevels]
  | succ k ih =>
    obtain ⟨fuel, rfl⟩ : ∃ f, fuel = f + 1 := ⟨fuel - 1, by omega⟩
    rw [lazyRoot, if_neg hfits.ne_one, ih (by omega) hfits.next, rootOfLevels,
      pairUp_append_replicate hfits.1]
    rfl

/-- The lazy loop, given as many rounds as leaves, computes the padded root, and
that root exists. -/
theorem lazyRoot_eq_paddedRoot {leaves : List α} (hne : leaves ≠ []) (z : α) :
    ∃ r, paddedRoot node z leaves = some r ∧ lazyRoot node leaves.length (leaves, z) = some r := by
  have hfits : Fits (Nat.clog 2 leaves.length) leaves.length :=
    fits_clog (List.length_pos_iff.mpr hne)
  have hlen : (leaves ++ List.replicate (2 ^ Nat.clog 2 leaves.length - leaves.length) z).length =
      2 ^ Nat.clog 2 leaves.length := by
    simp only [List.length_append, List.length_replicate]
    exact Nat.add_sub_of_le hfits.1
  obtain ⟨r, hr⟩ := @exists_rootOfLevels _ node _ _ hlen
  refine ⟨r, hr, ?_⟩
  rw [lazyRoot_eq _ hfits.lt hfits]
  exact hr

end MerkleLevels
