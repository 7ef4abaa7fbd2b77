import Mathlib

/-!
# Methods that mutate a state and may fail

A computation in `ExceptT ε (StateM σ)` models a method of a mutable object
that returns an error: a failure stops the method but keeps every change made
before it. `exec` runs such a method from a state; the lemmas below execute
its building blocks one at a time and invert a sequence that failed.
-/

namespace ExceptState

universe u

variable {ε σ α β : Type u}

/-- Run a method from a state: its result and the state it leaves. -/
def exec (x : ExceptT ε (StateM σ) α) (s : σ) : Except ε α × σ := x.run.run s

@[simp] theorem exec_pure (a : α) (s : σ) :
    exec (pure a : ExceptT ε (StateM σ) α) s = (.ok a, s) := rfl

@[simp] theorem exec_throw (e : ε) (s : σ) :
    exec (throw e : ExceptT ε (StateM σ) α) s = (.error e, s) := rfl

@[simp] theorem exec_get (s : σ) : exec (get : ExceptT ε (StateM σ) σ) s = (.ok s, s) := rfl

@[simp] theorem exec_set (s' s : σ) :
    exec (set s' : ExceptT ε (StateM σ) PUnit) s = (.ok ⟨⟩, s') := rfl

@[simp] theorem exec_modify (f : σ → σ) (s : σ) :
    exec (modify f : ExceptT ε (StateM σ) PUnit) s = (.ok ⟨⟩, f s) := rfl

theorem exec_bind (x : ExceptT ε (StateM σ) α) (f : α → ExceptT ε (StateM σ) β) (s : σ) :
    exec (x >>= f) s =
      match exec x s with
      | (.ok a, s') => exec (f a) s'
      | (.error e, s') => (.error e, s') := by
  simp only [exec, ExceptT.run_bind, StateT.run_bind]
  rcases x.run.run s with ⟨r, s'⟩
  cases r <;> rfl

@[simp] theorem exec_get_bind (f : σ → ExceptT ε (StateM σ) α) (s : σ) :
    exec (get >>= f) s = exec (f s) s := rfl

theorem exec_bind_of_ok {x : ExceptT ε (StateM σ) α} {f : α → ExceptT ε (StateM σ) β}
    {s s' : σ} {a : α} (h : exec x s = (.ok a, s')) : exec (x >>= f) s = exec (f a) s' := by
  rw [exec_bind, h]

/-- A failed sequence failed in its first part, or after the first part succeeded. -/
theorem exec_bind_eq_error {x : ExceptT ε (StateM σ) α} {f : α → ExceptT ε (StateM σ) β}
    {s s'' : σ} {e : ε} (h : exec (x >>= f) s = (.error e, s'')) :
    exec x s = (.error e, s'') ∨ ∃ a s', exec x s = (.ok a, s') ∧ exec (f a) s' = (.error e, s'') := by
  rw [exec_bind] at h
  rcases hx : exec x s with ⟨r, s'⟩
  rw [hx] at h
  cases r with
  | ok a => exact Or.inr ⟨a, s', rfl, h⟩
  | error e' =>
    cases h
    exact Or.inl rfl

/-- A sequence that returned normally did so in both of its parts. -/
theorem exec_bind_eq_ok {x : ExceptT ε (StateM σ) α} {f : α → ExceptT ε (StateM σ) β}
    {s s'' : σ} {b : β} (h : exec (x >>= f) s = (.ok b, s'')) :
    ∃ a s', exec x s = (.ok a, s') ∧ exec (f a) s' = (.ok b, s'') := by
  rw [exec_bind] at h
  rcases hx : exec x s with ⟨r, s'⟩
  rw [hx] at h
  cases r with
  | ok a => exact ⟨a, s', rfl, h⟩
  | error e => cases h

/-- A method that returns normally from every state. -/
def NoThrow (x : ExceptT ε (StateM σ) α) : Prop := ∀ s, ∃ a, (exec x s).1 = .ok a

theorem NoThrow.exec_ne_error {x : ExceptT ε (StateM σ) α} (hx : NoThrow x) (s : σ) (e : ε)
    (s' : σ) : exec x s ≠ (.error e, s') := by
  intro he
  obtain ⟨a, ha⟩ := hx s
  rw [he] at ha
  cases ha

theorem noThrow_pure (a : α) : NoThrow (pure a : ExceptT ε (StateM σ) α) := fun _ => ⟨a, rfl⟩

theorem noThrow_get : NoThrow (get : ExceptT ε (StateM σ) σ) := fun s => ⟨s, rfl⟩

theorem noThrow_modify (f : σ → σ) : NoThrow (modify f : ExceptT ε (StateM σ) PUnit) :=
  fun _ => ⟨⟨⟩, rfl⟩

theorem noThrow_bind {x : ExceptT ε (StateM σ) α} {f : α → ExceptT ε (StateM σ) β}
    (hx : NoThrow x) (hf : ∀ a, NoThrow (f a)) : NoThrow (x >>= f) := by
  intro s
  obtain ⟨a, ha⟩ := hx s
  have hxs : exec x s = (.ok a, (exec x s).2) := Prod.ext ha rfl
  rw [exec_bind_of_ok hxs]
  exact hf a _

end ExceptState

/-! ## Plain `Except`

A function that may fail but changes nothing is in `Except`. A result that is
`ok` came from `ok` results of every step. -/

namespace Except

variable {ε α β : Type u}

@[simp] theorem pure_eq_ok (a : α) : (pure a : Except ε α) = .ok a := rfl

@[simp] theorem throw_eq_error (e : ε) : (throw e : Except ε α) = .error e := rfl

@[simp] theorem ok_bind (a : α) (f : α → Except ε β) : (Except.ok a >>= f) = f a := rfl

@[simp] theorem error_bind (e : ε) (f : α → Except ε β) : (Except.error e >>= f) = .error e := rfl

theorem bind_eq_ok {x : Except ε α} {f : α → Except ε β} {b : β} :
    x >>= f = .ok b ↔ ∃ a, x = .ok a ∧ f a = .ok b := by
  cases x with
  | error e => exact ⟨fun h => (nomatch h), fun ⟨_, h, _⟩ => (nomatch h)⟩
  | ok a => exact ⟨fun h => ⟨a, rfl, h⟩, fun ⟨_, h, hf⟩ => by cases h; exact hf⟩

theorem map_eq_ok {f : α → β} {x : Except ε α} {b : β} :
    f <$> x = .ok b ↔ ∃ a, x = .ok a ∧ f a = b := by
  cases x with
  | error e => exact ⟨fun h => (nomatch h), fun ⟨_, h, _⟩ => (nomatch h)⟩
  | ok a =>
    refine ⟨fun h => ⟨a, rfl, ?_⟩, fun ⟨_, h, hf⟩ => by cases h; rw [← hf]; rfl⟩
    cases h
    rfl

/-- An early return with an error that did not happen: the result is the rest's. -/
theorem eq_ok_of_ite_error {c : Prop} [Decidable c] {e : ε} {r : Except ε α} {a : α}
    (h : (if c then .error e else r) = .ok a) : r = .ok a := by
  split_ifs at h
  exact h

/-- The same for a check nested under a condition, the rest joining both branches. -/
theorem eq_ok_of_ite_ite_error {c d : Prop} [Decidable c] [Decidable d] {e : ε}
    {r : Except ε α} {a : α} (h : (if c then (if d then .error e else r) else r) = .ok a) :
    r = .ok a := by
  split_ifs at h <;> exact h

/-- The invariant rule of a fold that may fail: an invariant of the prefix
folded so far that holds of the empty prefix and is carried by every step holds
of the whole list. The step may use where it stands in the list. -/
theorem foldlM_inv {f : β → α → Except ε β} (I : List α → β → Prop) {l : List α}
    (step : ∀ pre a rest b b', pre ++ a :: rest = l → I pre b → f b a = .ok b' →
      I (pre ++ [a]) b')
    {b r : β} (h0 : I [] b) (h : l.foldlM f b = .ok r) : I l r := by
  -- the fold runs on the part of `l` after the prefix already folded
  suffices key : ∀ rest pre b, pre ++ rest = l → I pre b → rest.foldlM f b = .ok r → I l r from
    key l [] b rfl h0 h
  intro rest
  induction rest with
  | nil =>
    intro pre b hl hb hfold
    cases hfold
    simpa [← hl] using hb
  | cons a rest ih =>
    intro pre b hl hb hfold
    rw [List.foldlM_cons] at hfold
    cases hf : f b a with
    | error e => rw [hf] at hfold; cases hfold
    | ok b' =>
      rw [hf] at hfold
      exact ih (pre ++ [a]) b' (by simpa using hl) (step pre a rest b b' hl hb hf) hfold

/-- A fold each of whose steps succeeds while an invariant of the folded value
holds, and keeps it, is the plain fold of those steps. -/
theorem foldlM_eq_ok {f : β → α → Except ε β} (g : β → α → β) (I : β → Prop) {l : List α}
    (step : ∀ b a, a ∈ l → I b → f b a = .ok (g b a) ∧ I (g b a)) {b : β} (hb : I b) :
    l.foldlM f b = .ok (l.foldl g b) := by
  induction l generalizing b with
  | nil => rfl
  | cons a l ih =>
    obtain ⟨hf, hI⟩ := step b a List.mem_cons_self hb
    rw [List.foldlM_cons, hf, ok_bind, List.foldl_cons]
    exact ih (fun b' a' ha' => step b' a' (List.mem_cons_of_mem a ha')) hI

/-- A fold whose step succeeds, with the plain step `g`, exactly when `P` holds of the
item succeeds exactly when `P` holds of every item, and is then the plain fold. -/
theorem foldlM_eq_ok_iff {f : β → α → Except ε β} (g : β → α → β) (P : α → Prop)
    (hf : ∀ b a b', f b a = .ok b' ↔ P a ∧ b' = g b a) {l : List α} {b r : β} :
    l.foldlM f b = .ok r ↔ (∀ a ∈ l, P a) ∧ r = l.foldl g b := by
  constructor
  · intro h
    refine foldlM_inv (fun pre r => (∀ a ∈ pre, P a) ∧ r = pre.foldl g b) ?_ ⟨by simp, rfl⟩ h
    rintro pre a - b₁ b₂ - ⟨hpre, rfl⟩ hstep
    obtain ⟨ha, rfl⟩ := (hf _ _ _).mp hstep
    refine ⟨?_, by rw [List.foldl_append, List.foldl_cons, List.foldl_nil]⟩
    intro x hx
    rcases List.mem_append.mp hx with hx | hx
    · exact hpre x hx
    · rw [List.mem_singleton.mp hx]
      exact ha
  · rintro ⟨hall, rfl⟩
    exact foldlM_eq_ok g (fun _ => True)
      (fun b' a ha _ => ⟨(hf b' a _).mpr ⟨hall a ha, rfl⟩, trivial⟩) trivial

end Except
