import Mathlib

/-!
# A least-recently-used cache

A fixed-size cache as a list of entries, most recently used first. `contains`
looks a key up without touching the order; `get` moves the entry it finds to the
front; `add` puts the entry at the front, replacing the key's old entry, and
drops the least recently used entry when the cache overflows.

What a cache's user relies on is that every entry it reads was written by it:
`Sound P c` says that every entry satisfies `P`. Reads and writes of entries that
satisfy `P`, and any eviction, keep it (`Sound.get`, `Sound.add`, `Sound.sublist`).
-/

namespace LruCache

structure Cache (κ ν : Type*) where
  size : Nat
  entries : List (κ × ν)

variable {κ ν : Type*} [DecidableEq κ]

/-- An empty cache of `size` entries. -/
def Cache.new (size : Nat) : Cache κ ν := ⟨size, []⟩

/-- Is `k` cached; the order is left as it is. -/
def Cache.contains (c : Cache κ ν) (k : κ) : Bool := c.entries.any fun e => e.1 = k

/-- The value cached for `k`, and the cache with `k` made the most recent. -/
def Cache.get (c : Cache κ ν) (k : κ) : Option ν × Cache κ ν :=
  match c.entries.find? fun e => e.1 = k with
  | some e => (some e.2, ⟨c.size, e :: c.entries.filter fun e => e.1 ≠ k⟩)
  | none => (none, c)

/-- Cache `v` under `k` as the most recent entry, evicting the oldest on overflow. -/
def Cache.add (c : Cache κ ν) (k : κ) (v : ν) : Cache κ ν :=
  ⟨c.size, ((k, v) :: c.entries.filter fun e => e.1 ≠ k).take c.size⟩

/-- Every cached entry satisfies `P`. -/
def Sound (P : κ → ν → Prop) (c : Cache κ ν) : Prop := ∀ e ∈ c.entries, P e.1 e.2

variable {P : κ → ν → Prop} {c : Cache κ ν} {k : κ} {v : ν}

theorem contains_iff : c.contains k = true ↔ ∃ v, (k, v) ∈ c.entries := by
  simp only [Cache.contains, List.any_eq_true, decide_eq_true_eq]
  constructor
  · rintro ⟨e, he, rfl⟩
    exact ⟨e.2, he⟩
  · rintro ⟨v, hv⟩
    exact ⟨(k, v), hv, rfl⟩

/-- A cached key is found by `get`, with a value cached under it. -/
theorem get_of_contains (h : c.contains k = true) :
    ∃ v, (k, v) ∈ c.entries ∧ (c.get k).1 = some v := by
  obtain ⟨v₀, hv₀⟩ := contains_iff.mp h
  unfold Cache.get
  cases hf : c.entries.find? (fun e => e.1 = k) with
  | none =>
    have := List.find?_eq_none.mp hf (k, v₀) hv₀
    simp at this
  | some e =>
    have hk : e.1 = k := by simpa using List.find?_some hf
    refine ⟨e.2, ?_, rfl⟩
    rw [← hk]
    exact List.mem_of_find?_eq_some hf

theorem Sound.get (h : Sound P c) (k : κ) : Sound P (c.get k).2 := by
  unfold Cache.get
  split
  · rename_i e he
    intro e' he'
    rcases List.mem_cons.mp he' with rfl | he'
    · exact h e' (List.mem_of_find?_eq_some he)
    · exact h e' (List.mem_of_mem_filter he')
  · exact h

theorem Sound.add (h : Sound P c) (hv : P k v) : Sound P (c.add k v) := by
  intro e he
  rcases List.mem_cons.mp (List.mem_of_mem_take he) with rfl | he'
  · exact hv
  · exact h e (List.mem_of_mem_filter he')

omit [DecidableEq κ] in
/-- Evicting any entries keeps the cache sound. -/
theorem Sound.sublist (h : Sound P c) {es : List (κ × ν)} (hes : es.Sublist c.entries) :
    Sound P ⟨c.size, es⟩ :=
  fun e he => h e (hes.subset he)

end LruCache
