import Mathlib

/-!
# Finite maps as strictly sorted association lists

A finite map whose entries are kept in strictly increasing key order. Unlike a
finitely supported function, a key bound to a neutral value is still present,
so the map records exactly which keys were written. Every map has one
representation, which makes iteration in key order a plain list traversal.
-/

namespace SortedMap

universe u v

variable {κ : Type u} {ν : Type v} [LinearOrder κ]

/-- Insert or overwrite one binding, keeping the keys in increasing order. -/
def insertEntry (k : κ) (x : ν) : List (κ × ν) → List (κ × ν)
  | [] => [(k, x)]
  | (k', x') :: rest =>
    if k < k' then (k, x) :: (k', x') :: rest
    else if k = k' then (k, x) :: rest
    else (k', x') :: insertEntry k x rest

/-- Look a key up in an association list. -/
def findEntry (k : κ) : List (κ × ν) → Option ν
  | [] => none
  | (k', x') :: rest => if k = k' then some x' else findEntry k rest

theorem mem_keys_insertEntry {k j : κ} {x : ν} {l : List (κ × ν)}
    (h : j ∈ (insertEntry k x l).map Prod.fst) : j = k ∨ j ∈ l.map Prod.fst := by
  induction l with
  | nil => simpa [insertEntry] using h
  | cons e rest ih =>
    obtain ⟨k', x'⟩ := e
    simp only [insertEntry] at h
    split_ifs at h with hlt heq
    · simpa only [List.map_cons, List.mem_cons] using h
    · subst heq
      simp only [List.map_cons, List.mem_cons] at h ⊢
      exact h.imp_right Or.inr
    · simp only [List.map_cons, List.mem_cons] at h ⊢
      rcases h with h | h
      · exact Or.inr (Or.inl h)
      · exact (ih h).imp_right Or.inr

theorem insertEntry_sorted (k : κ) (x : ν) {l : List (κ × ν)}
    (hl : (l.map Prod.fst).Pairwise (· < ·)) :
    ((insertEntry k x l).map Prod.fst).Pairwise (· < ·) := by
  induction l with
  | nil => simp [insertEntry]
  | cons e rest ih =>
    obtain ⟨k', x'⟩ := e
    simp only [List.map_cons, List.pairwise_cons] at hl
    simp only [insertEntry]
    split_ifs with hlt heq
    · simp only [List.map_cons, List.pairwise_cons, List.mem_cons]
      refine ⟨?_, hl.1, hl.2⟩
      rintro j (rfl | hj)
      · exact hlt
      · exact lt_trans hlt (hl.1 j hj)
    · subst heq
      simpa only [List.map_cons, List.pairwise_cons] using hl
    · have hgt : k' < k := lt_of_le_of_ne (not_lt.mp hlt) (Ne.symm heq)
      simp only [List.map_cons, List.pairwise_cons]
      refine ⟨?_, ih hl.2⟩
      intro j hj
      rcases mem_keys_insertEntry hj with rfl | hj
      · exact hgt
      · exact hl.1 j hj

theorem findEntry_insertEntry (k j : κ) (x : ν) (l : List (κ × ν)) :
    findEntry j (insertEntry k x l) = if j = k then some x else findEntry j l := by
  induction l with
  | nil => simp [insertEntry, findEntry]
  | cons e rest ih =>
    obtain ⟨k', x'⟩ := e
    by_cases hlt : k < k'
    · rw [insertEntry, if_pos hlt]
      by_cases hj : j = k <;> simp [findEntry, hj]
    by_cases heq : k = k'
    · subst heq
      rw [insertEntry, if_neg hlt, if_pos rfl]
      by_cases hj : j = k <;> simp [findEntry, hj]
    · rw [insertEntry, if_neg hlt, if_neg heq]
      by_cases hj : j = k'
      · subst hj
        simp [findEntry, Ne.symm heq]
      · simp [findEntry, hj, ih]

end SortedMap

/-- A finite map with strictly increasing keys, as its one canonical list. -/
structure SortedMap (κ : Type u) (ν : Type v) [LinearOrder κ] where
  entries : List (κ × ν)
  sorted : (entries.map Prod.fst).Pairwise (· < ·)

namespace SortedMap

universe u v w

variable {κ : Type u} {ν : Type v} [LinearOrder κ]

instance [DecidableEq κ] [DecidableEq ν] : DecidableEq (SortedMap κ ν) := fun a b =>
  decidable_of_iff (a.entries = b.entries) (by
    cases a; cases b
    simp)

/-- The map with no binding. -/
def empty : SortedMap κ ν := ⟨[], List.Pairwise.nil⟩

/-- The binding of a key, if it was written. -/
def get? (m : SortedMap κ ν) (k : κ) : Option ν := findEntry k m.entries

/-- Write one binding. -/
def insert (m : SortedMap κ ν) (k : κ) (x : ν) : SortedMap κ ν :=
  ⟨insertEntry k x m.entries, insertEntry_sorted k x m.sorted⟩

/-- The keys, in increasing order. -/
def keys (m : SortedMap κ ν) : List κ := m.entries.map Prod.fst

/-- The values, in increasing key order. -/
def values (m : SortedMap κ ν) : List ν := m.entries.map Prod.snd

/-- Keep the bindings that satisfy `p`. -/
def filter (p : κ → ν → Bool) (m : SortedMap κ ν) : SortedMap κ ν :=
  ⟨m.entries.filter (fun e => p e.1 e.2), m.sorted.sublist (List.filter_sublist.map _)⟩

/-- Rewrite every value, given its key; the keys stay as they are. -/
def mapValues {ν' : Type w} (f : κ → ν → ν') (m : SortedMap κ ν) : SortedMap κ ν' :=
  ⟨m.entries.map fun e => (e.1, f e.1 e.2), by
    have hkeys : (m.entries.map fun e => (e.1, f e.1 e.2)).map Prod.fst =
        m.entries.map Prod.fst := by
      simp [List.map_map, Function.comp_def]
    rw [hkeys]
    exact m.sorted⟩

/-- One step of `mergeWith`: fold one binding of the other map in. -/
def mergeStep (f : ν → ν → ν) (acc : SortedMap κ ν) (e : κ × ν) : SortedMap κ ν :=
  match acc.get? e.1 with
  | some old => acc.insert e.1 (f e.2 old)
  | none => acc.insert e.1 e.2

/-- Combine another map into this one key by key; `f new old` decides a collision. -/
def mergeWith (f : ν → ν → ν) (m other : SortedMap κ ν) : SortedMap κ ν :=
  other.entries.foldl (mergeStep f) m

@[simp] theorem get?_empty (k : κ) : (empty : SortedMap κ ν).get? k = none := rfl

@[simp] theorem get?_insert (m : SortedMap κ ν) (k j : κ) (x : ν) :
    (m.insert k x).get? j = if j = k then some x else m.get? j :=
  findEntry_insertEntry k j x m.entries

/-! ### Rebuilding a map from its values -/
/-- Without repeated keys, `findEntry` finds exactly the entries of the list. -/
theorem findEntry_eq_some_iff {l : List (κ × ν)} (hl : (l.map Prod.fst).Nodup) (k : κ) (x : ν) :
    findEntry k l = some x ↔ (k, x) ∈ l := by
  induction l with
  | nil => simp [findEntry]
  | cons e rest ih =>
    obtain ⟨k', x'⟩ := e
    simp only [List.map_cons, List.nodup_cons] at hl
    by_cases hk : k = k'
    · subst hk
      have hnot : (k, x) ∉ rest := fun hmem => hl.1 (List.mem_map_of_mem hmem)
      simp [findEntry, hnot, eq_comm]
    · simp [findEntry, hk, ih hl.2]

/-- A key is bound to a value exactly when the map holds that entry. -/
theorem get?_eq_some_iff (m : SortedMap κ ν) (k : κ) (x : ν) :
    m.get? k = some x ↔ (k, x) ∈ m.entries :=
  findEntry_eq_some_iff m.sorted.nodup k x

theorem get?_filter (p : κ → ν → Bool) (m : SortedMap κ ν) (k : κ) :
    (m.filter p).get? k = (m.get? k).filter (p k) := by
  apply Option.ext
  intro x
  rw [get?_eq_some_iff, Option.filter_eq_some_iff,
    get?_eq_some_iff]
  simp [filter, List.mem_filter]

theorem get?_filter_eq_some {p : κ → ν → Bool} {m : SortedMap κ ν} {k : κ} {x : ν} :
    (m.filter p).get? k = some x ↔ m.get? k = some x ∧ p k x = true := by
  rw [get?_filter, Option.filter_eq_some_iff]

/-- A value of the map is bound to its key. -/
theorem mem_values {m : SortedMap κ ν} {x : ν} (hx : x ∈ m.values) : ∃ k, m.get? k = some x := by
  obtain ⟨e, he, rfl⟩ := List.mem_map.mp hx
  exact ⟨e.1, (get?_eq_some_iff m e.1 e.2).mpr he⟩

/-- Folding `insert` over a list keyed by `key` binds each key to the last
element of the list with that key. -/
theorem get?_foldl_insert (key : ν → κ) (l : List ν) (m : SortedMap κ ν) (k : κ) :
    (l.foldl (fun acc x => acc.insert (key x) x) m).get? k =
      (l.filter (key · = k)).getLast?.or (m.get? k) := by
  induction l generalizing m with
  | nil => simp
  | cons x xs ih =>
    rw [List.foldl_cons, ih, get?_insert]
    by_cases hx : key x = k
    · cases hlast : (xs.filter (key · = k)).getLast? <;> simp [hx, hlast, List.getLast?_cons]
    · simp [hx, Ne.symm hx]

/-- In an association list whose values give back their keys, the last value
with a key is the one `findEntry` finds. -/
theorem filter_snd_getLast? (key : ν → κ) {l : List (κ × ν)} (hl : (l.map Prod.fst).Nodup)
    (hkey : ∀ e ∈ l, key e.2 = e.1) (k : κ) :
    ((l.map Prod.snd).filter (key · = k)).getLast? = findEntry k l := by
  induction l with
  | nil => simp [findEntry]
  | cons e rest ih =>
    obtain ⟨k', x'⟩ := e
    simp only [List.map_cons, List.nodup_cons] at hl
    have hx' : key x' = k' := hkey _ (List.mem_cons_self ..)
    have hrest : ∀ e ∈ rest, key e.2 = e.1 := fun e he => hkey e (List.mem_cons_of_mem _ he)
    by_cases hk : k' = k
    · subst hk
      -- no later entry carries the key again
      have hnone : (rest.map Prod.snd).filter (key · = k') = [] := by
        rw [List.filter_eq_nil_iff]
        intro y hy
        obtain ⟨e, he, rfl⟩ := List.mem_map.mp hy
        rw [hrest e he, decide_eq_true_eq]
        rintro rfl
        exact hl.1 (List.mem_map_of_mem he)
      simp [hx', hnone, findEntry]
    · simp [hx', hk, findEntry, Ne.symm hk, ih hl.2 hrest]

/-- Rebuilding a map from its values, keyed by a function that gives back each
value's key, gives the map again. -/
theorem get?_foldl_insert_values (key : ν → κ) (m : SortedMap κ ν)
    (hkey : ∀ e ∈ m.entries, key e.2 = e.1) (k : κ) :
    ((m.entries.map Prod.snd).foldl (fun acc x => acc.insert (key x) x) empty).get? k =
      m.get? k := by
  rw [get?_foldl_insert, get?_empty, Option.or_none]
  exact filter_snd_getLast? key m.sorted.nodup hkey k

end SortedMap
