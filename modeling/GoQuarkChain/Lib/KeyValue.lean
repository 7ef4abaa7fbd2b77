import Mathlib

/-!
# A key-value store written and deleted in batches

A store maps every key to an optional value. `put` and `delete` change one key;
`writeEntries` puts a list of bindings in order, so that the last binding of a
key wins, and `deleteKeys` deletes a list of keys. What a key holds after a
batch of writes is read off its last binding (`writeEntries_apply`). From that:
keys outside a batch keep their value, writing a batch twice is writing it once,
and deleting a set of keys undoes whatever a batch on those keys wrote.
-/

namespace KeyValue

variable {κ ν : Type*} [DecidableEq κ]

def put (k : κ) (v : ν) (db : κ → Option ν) : κ → Option ν := Function.update db k (some v)

def delete (k : κ) (db : κ → Option ν) : κ → Option ν := Function.update db k none

/-- Put every binding of `es`, first to last. -/
def writeEntries (es : List (κ × ν)) (db : κ → Option ν) : κ → Option ν :=
  es.foldl (fun db e => put e.1 e.2 db) db

/-- Delete every key of `ks`. -/
def deleteKeys (ks : List κ) (db : κ → Option ν) : κ → Option ν :=
  ks.foldl (fun db k => delete k db) db

/-- The value of the last binding of `k` in `es`, if there is one. -/
def lastBinding (es : List (κ × ν)) (k : κ) : Option ν :=
  (es.reverse.find? fun e => decide (e.1 = k)).map Prod.snd

variable {es es₁ es₂ : List (κ × ν)} {ks ks' : List κ} {db : κ → Option ν} {k : κ}

@[simp] theorem put_apply (k k' : κ) (v : ν) (db : κ → Option ν) :
    put k v db k' = if k' = k then some v else db k' :=
  Function.update_apply db k (some v) k'

@[simp] theorem delete_apply (k k' : κ) (db : κ → Option ν) :
    delete k db k' = if k' = k then none else db k' :=
  Function.update_apply db k none k'

@[simp] theorem writeEntries_nil (db : κ → Option ν) : writeEntries [] db = db := rfl

@[simp] theorem writeEntries_cons (e : κ × ν) (es : List (κ × ν)) (db : κ → Option ν) :
    writeEntries (e :: es) db = writeEntries es (put e.1 e.2 db) := rfl

@[simp] theorem writeEntries_append (es₁ es₂ : List (κ × ν)) (db : κ → Option ν) :
    writeEntries (es₁ ++ es₂) db = writeEntries es₂ (writeEntries es₁ db) :=
  List.foldl_append

@[simp] theorem deleteKeys_nil (db : κ → Option ν) : deleteKeys [] db = db := rfl

@[simp] theorem deleteKeys_cons (k : κ) (ks : List κ) (db : κ → Option ν) :
    deleteKeys (k :: ks) db = deleteKeys ks (delete k db) := rfl

theorem lastBinding_cons (e : κ × ν) (es : List (κ × ν)) (k : κ) :
    lastBinding (e :: es) k = (lastBinding es k).or (if k = e.1 then some e.2 else none) := by
  simp only [lastBinding, List.reverse_cons, List.find?_append]
  cases List.find? (fun e => decide (e.1 = k)) es.reverse with
  | some e' => rfl
  | none => by_cases hk : k = e.1 <;> simp [hk, eq_comm]

theorem lastBinding_eq_none (h : k ∉ es.map Prod.fst) : lastBinding es k = none := by
  simp only [lastBinding, Option.map_eq_none_iff, List.find?_eq_none, List.mem_reverse,
    decide_eq_true_eq]
  rintro e he rfl
  exact h (List.mem_map_of_mem he)

/-- After a batch, a key holds its last binding in the batch, or what it held before. -/
theorem writeEntries_apply (es : List (κ × ν)) (db : κ → Option ν) (k : κ) :
    writeEntries es db k = (lastBinding es k).or (db k) := by
  induction es generalizing db with
  | nil => rfl
  | cons e es ih =>
    rw [writeEntries_cons, ih, lastBinding_cons, put_apply]
    cases lastBinding es k <;> split_ifs <;> rfl

/-- A batch leaves the keys it does not bind as they were. -/
theorem writeEntries_of_not_mem (h : k ∉ es.map Prod.fst) : writeEntries es db k = db k := by
  rw [writeEntries_apply, lastBinding_eq_none h, Option.none_or]

theorem writeEntries_idem (es : List (κ × ν)) (db : κ → Option ν) :
    writeEntries es (writeEntries es db) = writeEntries es db := by
  funext k
  rw [writeEntries_apply, writeEntries_apply]
  cases lastBinding es k <;> rfl

theorem deleteKeys_apply (ks : List κ) (db : κ → Option ν) (k : κ) :
    deleteKeys ks db k = if k ∈ ks then none else db k := by
  induction ks generalizing db with
  | nil => simp
  | cons k' ks ih =>
    rw [deleteKeys_cons, ih, delete_apply]
    by_cases hk : k = k' <;> simp [hk]

/-- Deleting depends only on which keys are deleted. -/
theorem deleteKeys_congr (h : ∀ k, k ∈ ks ↔ k ∈ ks') (db : κ → Option ν) :
    deleteKeys ks db = deleteKeys ks' db := by
  funext k
  simp only [deleteKeys_apply, h]

/-- Deleting a set of keys undoes a batch that binds only keys of the set. -/
theorem deleteKeys_writeEntries (h : ∀ e ∈ es, e.1 ∈ ks) (db : κ → Option ν) :
    deleteKeys ks (writeEntries es db) = deleteKeys ks db := by
  funext k
  rw [deleteKeys_apply, deleteKeys_apply]
  split_ifs with hk
  · rfl
  · refine writeEntries_of_not_mem fun hmem => hk ?_
    obtain ⟨e, he, rfl⟩ := List.mem_map.mp hmem
    exact h e he

theorem deleteKeys_of_none (h : ∀ k ∈ ks, db k = none) : deleteKeys ks db = db := by
  funext k
  rw [deleteKeys_apply]
  split_ifs with hk
  · exact (h k hk).symm
  · rfl

end KeyValue
