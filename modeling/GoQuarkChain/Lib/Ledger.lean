import Mathlib

/-!
# Net change of a ledger

A ledger assigns an integer to every account, and only finitely many accounts
are touched at a time, so the total held is not defined but its change is.
`NetChange f g d` says that `g` differs from `f` at finitely many accounts and
by `d` in all: moving from `f` to `g` creates `d` (or destroys `-d`). Changes
compose by adding their amounts, and a change made at one account is what was
added there.
-/

namespace Ledger

variable {α : Type*}

/-- `g` differs from `f` at finitely many accounts, by `d` in total. -/
def NetChange (f g : α → ℤ) (d : ℤ) : Prop :=
  (Function.support fun a => g a - f a).Finite ∧ ∑ᶠ a, (g a - f a) = d

namespace NetChange

variable {f g h : α → ℤ} {d e : ℤ}

theorem congr_amount (hd : NetChange f g d) (he : d = e) : NetChange f g e := he ▸ hd

theorem trans (h₁ : NetChange f g d) (h₂ : NetChange g h e) : NetChange f h (d + e) := by
  have hsplit : (fun a => h a - f a) = fun a => (g a - f a) + (h a - g a) := by
    funext a
    ring
  refine ⟨?_, ?_⟩
  · rw [hsplit]
    exact (h₁.1.union h₂.1).subset (Function.support_add _ _)
  · rw [hsplit, finsum_add_distrib h₁.1 h₂.1, h₁.2, h₂.2]

/-- A change confined to one account creates what was added there. -/
theorem of_eq_off (a : α) (hoff : ∀ b, b ≠ a → g b = f b) : NetChange f g (g a - f a) := by
  have hsupp : (Function.support fun b => g b - f b) ⊆ {a} := by
    intro b hb
    by_contra hne
    exact hb (by simp [hoff b hne])
  refine ⟨(Set.finite_singleton a).subset hsupp, ?_⟩
  exact finsum_eq_single _ a fun b hb => by simp [hoff b hb]

end NetChange

end Ledger
