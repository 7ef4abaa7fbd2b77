import Mathlib

/-!
# Strictly sorted lists read by rank

A strictly sorted list is the abstract view of a finite ordered set that is
read by rank: the `p`-th element is the `p`-th smallest. Adding an element is
`List.orderedInsert`, removing the `p`-th is `List.eraseIdx`. A search tree's
in-order list is built from its subtrees by append, so the lemmas below say how
an insertion and a membership test split over `L ++ b :: R`, and that inserting
at the first position holding a larger element, as a binary search finds it,
is the same insertion.

A list of entries keyed by positions is read in runs that each resume after a
saved position. `SplitsAt p s pre rest` says that position `p` cuts `s` into
what was read and what is left; the cut is determined by `p`.
-/

namespace List

variable {α : Type*} [LinearOrder α]

theorem orderedInsert_append_cons_of_le {a b : α} (L R : List α) (h : a ≤ b) :
    (L ++ b :: R).orderedInsert (· ≤ ·) a = L.orderedInsert (· ≤ ·) a ++ b :: R := by
  induction L with
  | nil => simp [h]
  | cons c L ih =>
    by_cases hc : a ≤ c
    · simp [hc]
    · simp [hc, ih]

theorem orderedInsert_append_of_forall_lt {a : α} {L : List α} (M : List α)
    (h : ∀ x ∈ L, x < a) :
    (L ++ M).orderedInsert (· ≤ ·) a = L ++ M.orderedInsert (· ≤ ·) a := by
  induction L with
  | nil => rfl
  | cons c L ih =>
    have hc : ¬ a ≤ c := not_le.mpr (h c mem_cons_self)
    simp [hc, ih fun x hx => h x (mem_cons_of_mem c hx)]

theorem orderedInsert_of_forall_lt {a : α} {L : List α} (h : ∀ x ∈ L, x < a) :
    L.orderedInsert (· ≤ ·) a = L ++ [a] := by
  simpa using orderedInsert_append_of_forall_lt [] h

theorem insertIdx_findIdx_eq_orderedInsert {a : α} {l : List α} (h : a ∉ l) :
    l.insertIdx (l.findIdx (a < ·)) a = l.orderedInsert (· ≤ ·) a := by
  induction l with
  | nil => rfl
  | cons b l ih =>
    have hab : a ≠ b := fun e => h (e ▸ mem_cons_self)
    rcases lt_or_gt_of_ne hab with hlt | hgt
    · simp [findIdx_cons, hlt, hlt.le]
    · have hrest : a ∉ l := fun hm => h (mem_cons_of_mem b hm)
      simp [findIdx_cons, not_lt.mpr hgt.le, not_le.mpr hgt, ih hrest]

theorem Pairwise.orderedInsert_lt {a : α} {l : List α} (hl : l.Pairwise (· < ·)) (h : a ∉ l) :
    (l.orderedInsert (· ≤ ·) a).Pairwise (· < ·) := by
  induction l with
  | nil => simp
  | cons b l ih =>
    rw [pairwise_cons] at hl
    have hab : a ≠ b := fun e => h (e ▸ mem_cons_self)
    have hrest : a ∉ l := fun hm => h (mem_cons_of_mem b hm)
    by_cases hle : a ≤ b
    · have hlt : a < b := lt_of_le_of_ne hle hab
      rw [orderedInsert_cons_of_le _ _ hle, pairwise_cons]
      refine ⟨?_, pairwise_cons.mpr hl⟩
      intro x hx
      rcases mem_cons.mp hx with rfl | hx
      · exact hlt
      · exact hlt.trans (hl.1 x hx)
    · rw [orderedInsert_of_not_le _ _ hle, pairwise_cons]
      refine ⟨?_, ih hl.2 hrest⟩
      intro x hx
      rcases (mem_orderedInsert _).mp hx with rfl | hx
      · exact not_le.mp hle
      · exact hl.1 x hx

theorem mem_left_of_lt {a b : α} {L R : List α} (hs : (L ++ b :: R).Pairwise (· < ·))
    (h : a ∈ L ++ b :: R) (hab : a < b) : a ∈ L := by
  rcases mem_append.mp h with h | h
  · exact h
  · rw [pairwise_append, pairwise_cons] at hs
    rcases mem_cons.mp h with rfl | h
    · exact absurd hab (lt_irrefl a)
    · exact absurd (hs.2.1.1 a h) (not_lt.mpr hab.le)

theorem mem_right_of_lt {a b : α} {L R : List α} (hs : (L ++ b :: R).Pairwise (· < ·))
    (h : a ∈ L ++ b :: R) (hba : b < a) : a ∈ R := by
  rcases mem_append.mp h with h | h
  · rw [pairwise_append] at hs
    exact absurd (hs.2.2 a h b mem_cons_self) (not_lt.mpr hba.le)
  · rcases mem_cons.mp h with rfl | h
    · exact absurd hba (lt_irrefl a)
    · exact h

/-- Sorting a duplicate-free list gives a strictly sorted one. -/
theorem Nodup.pairwise_lt_mergeSort {l : List α} (h : l.Nodup) : l.mergeSort.Pairwise (· < ·) := by
  have hle : l.mergeSort.Pairwise (fun a b => decide (a ≤ b) = true) :=
    @pairwise_mergeSort α (fun a b => decide (a ≤ b))
      (fun _ _ _ hab hbc => decide_eq_true (le_trans (of_decide_eq_true hab) (of_decide_eq_true hbc)))
      (fun a b => by simpa using le_total a b) l
  have hnodup : l.mergeSort.Nodup := (mergeSort_perm l _).nodup_iff.mpr h
  exact (hle.and hnodup).imp fun ⟨hab, hne⟩ => lt_of_le_of_ne (of_decide_eq_true hab) hne

section Keyed

variable {κ β : Type*} [LinearOrder κ]

/-- Position `p` cuts `s` into `pre`, whose keys are at most `p`, and `rest`,
whose keys are above it. -/
def SplitsAt (p : κ) (s pre rest : List (κ × β)) : Prop :=
  s = pre ++ rest ∧ (∀ e ∈ pre, e.1 ≤ p) ∧ ∀ e ∈ rest, p < e.1

theorem SplitsAt.filter_le {p : κ} {s pre rest : List (κ × β)} (h : SplitsAt p s pre rest) :
    s.filter (fun e => e.1 ≤ p) = pre := by
  obtain ⟨rfl, hpre, hrest⟩ := h
  rw [filter_append, filter_eq_self.mpr (by simpa using hpre),
    filter_eq_nil_iff.mpr (by simpa using hrest), append_nil]

theorem SplitsAt.unique {p : κ} {s pre rest pre' rest' : List (κ × β)}
    (h : SplitsAt p s pre rest) (h' : SplitsAt p s pre' rest') : pre = pre' ∧ rest = rest' := by
  have hpre : pre = pre' := h.filter_le.symm.trans h'.filter_le
  subst hpre
  exact ⟨rfl, append_cancel_left (h.1.symm.trans h'.1)⟩

theorem SplitsAt.append {p : κ} {s pre rest t : List (κ × β)} (h : SplitsAt p s pre rest)
    (ht : ∀ e ∈ t, p < e.1) : SplitsAt p (s ++ t) pre (rest ++ t) := by
  obtain ⟨rfl, hpre, hrest⟩ := h
  refine ⟨append_assoc .., hpre, ?_⟩
  intro e he
  rcases mem_append.mp he with he | he
  · exact hrest e he
  · exact ht e he

end Keyed

end List
