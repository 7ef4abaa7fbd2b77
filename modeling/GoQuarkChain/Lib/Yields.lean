import Mathlib

/-!
# What a state-passing computation that may fail returns when it succeeds

For `x : StateT σ (Except ε) α`, `Yields x P` says that from every state in which `x`
succeeds its result satisfies `P`: a partial-correctness triple whose precondition is
`True`, over every starting state. The rules follow the monad's combinators (`pure`,
`bind`, `throw`, `tryCatch`, `if`) together with weakening, so that a postcondition of
a program built from them is proved one combinator at a time, without running it.
`Fails x E` is the same for the errors `x` can end with.
-/

section Yields

variable {σ ε α β : Type}

def Yields (x : StateT σ (Except ε) α) (P : α → Prop) : Prop :=
  ∀ s a s', x.run s = .ok (a, s') → P a

theorem Yields.mono {x : StateT σ (Except ε) α} {P Q : α → Prop} (h : Yields x P)
    (hPQ : ∀ a, P a → Q a) : Yields x Q :=
  fun s a s' hrun => hPQ a (h s a s' hrun)

theorem Yields.pure {a : α} {P : α → Prop} (h : P a) :
    Yields (Pure.pure a : StateT σ (Except ε) α) P := by
  intro s b s' hrun
  cases hrun
  exact h

theorem Yields.throw {P : α → Prop} (e : ε) : Yields (MonadExcept.throw e : StateT σ (Except ε) α) P := by
  intro s a s' hrun
  cases hrun

theorem Yields.bind {x : StateT σ (Except ε) α} {f : α → StateT σ (Except ε) β}
    {Q : α → Prop} {P : β → Prop} (hx : Yields x Q) (hf : ∀ a, Q a → Yields (f a) P) :
    Yields (x >>= f) P := by
  intro s b s' hrun
  rw [StateT.run_bind] at hrun
  cases hfirst : x.run s with
  | error e =>
    rw [hfirst] at hrun
    cases hrun
  | ok r =>
    obtain ⟨a, s₁⟩ := r
    rw [hfirst] at hrun
    exact hf a (hx s a s₁ hfirst) s₁ b s' hrun

theorem Yields.ite {c : Prop} [Decidable c] {x y : StateT σ (Except ε) α} {P : α → Prop}
    (hx : c → Yields x P) (hy : ¬c → Yields y P) : Yields (if c then x else y) P := by
  split
  · rename_i hc
    exact hx hc
  · rename_i hc
    exact hy hc

/-- A handler that never succeeds with a bad value keeps the postcondition: the result
comes either from the computation or from the handler. -/
theorem Yields.tryCatch {x : StateT σ (Except ε) α} {handler : ε → StateT σ (Except ε) α}
    {P : α → Prop} (hx : Yields x P) (hh : ∀ e, Yields (handler e) P) :
    Yields (tryCatch x handler) P := by
  intro s a s' hrun
  -- the `StateT` instance runs the computation and hands an error to the handler
  change tryCatchThe ε (x.run s) (fun e => (handler e).run s) = _ at hrun
  cases hfirst : x.run s with
  | error e =>
    rw [hfirst] at hrun
    exact hh e s a s' hrun
  | ok r =>
    rw [hfirst] at hrun
    cases hrun
    exact hx s a s' hfirst

/-- Every error that `x` ends with, from any state, satisfies `E`. -/
def Fails (x : StateT σ (Except ε) α) (E : ε → Prop) : Prop :=
  ∀ s e, x.run s = .error e → E e

theorem Fails.mono {x : StateT σ (Except ε) α} {E F : ε → Prop} (h : Fails x E)
    (hEF : ∀ e, E e → F e) : Fails x F :=
  fun s e hrun => hEF e (h s e hrun)

theorem Fails.pure {a : α} {E : ε → Prop} : Fails (Pure.pure a : StateT σ (Except ε) α) E := by
  intro s e hrun
  cases hrun

theorem Fails.throw {E : ε → Prop} {e : ε} (h : E e) :
    Fails (MonadExcept.throw e : StateT σ (Except ε) α) E := by
  intro s e' hrun
  cases hrun
  exact h

theorem Fails.bind {x : StateT σ (Except ε) α} {f : α → StateT σ (Except ε) β} {E : ε → Prop}
    (hx : Fails x E) (hf : ∀ a, Fails (f a) E) : Fails (x >>= f) E := by
  intro s e hrun
  rw [StateT.run_bind] at hrun
  cases hfirst : x.run s with
  | error e' =>
    rw [hfirst] at hrun
    cases hrun
    exact hx s e hfirst
  | ok r =>
    obtain ⟨a, s₁⟩ := r
    rw [hfirst] at hrun
    exact hf a s₁ e hrun

/-- Under `tryCatch` the computation's errors go to the handler, so only the handler's
errors come out. -/
theorem Fails.tryCatch {x : StateT σ (Except ε) α} {handler : ε → StateT σ (Except ε) α}
    {E : ε → Prop} (hh : ∀ e, Fails (handler e) E) : Fails (tryCatch x handler) E := by
  intro s e hrun
  change tryCatchThe ε (x.run s) (fun e => (handler e).run s) = _ at hrun
  cases hfirst : x.run s with
  | error e' =>
    rw [hfirst] at hrun
    exact hh e' s e hrun
  | ok r =>
    rw [hfirst] at hrun
    cases hrun

end Yields
