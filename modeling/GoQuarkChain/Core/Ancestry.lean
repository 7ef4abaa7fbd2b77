import GoQuarkChain.Core.MinorBlockChain

/-!
# `isSameChain` decides ancestry

`isSameChain(getParentHash, long, short)` answers whether `short` is `long` or one
of its ancestors. Its callers build `getParentHash` from a header database: the
parent hash of the stored header, or the empty hash when none is stored. A
`HeaderStore` is such a database: every header is stored under its own hash, and
none under the empty hash, which is how `getParentHash` reports a missing block.

`OnChain long a` says that `a` is `long` or is reached from it through stored
parents, each one height below its child. When the ancestor of `long` at the
height of `short` is on the chain, `isSameChain` returns, without a `log.Crit`, and
answers `true` exactly when that ancestor has `short`'s hash. The answer of the
equal-height and adjacent-height shortcuts is the one the parent walk gives.
-/

namespace Core

open IHeader

/-- A header database keyed by hash. -/
structure HeaderStore (η : Type) [IHeader η] where
  get : Hash → Option η
  get_emptyHash : get emptyHash = none
  hash_of_get : ∀ {h b}, get h = some b → IHeader.hash b = h

namespace HeaderStore

variable {η θ : Type} [IHeader η] [IHeader θ] (s : HeaderStore η)

/-- The parent function the callers hand to `isSameChain`: `isSameRootChain`'s `f`
and `GetParentHashByHash`. -/
def getParentHash (h : Hash) : Hash :=
  match s.get h with
  | some b => IHeader.getParentHash b
  | none => emptyHash

/-- `a` is `long`, or the stored parent, one height below, of a header on `long`'s chain. -/
inductive OnChain (long : η) : η → Prop
  | self : OnChain long long
  | parent {b p : η} : OnChain long b → s.get (IHeader.getParentHash b) = some p →
      numberU64 p + 1 = numberU64 b → OnChain long p

variable {s}

theorem getParentHash_of_get {h : Hash} {b : η} (hb : s.get h = some b) :
    s.getParentHash h = IHeader.getParentHash b := by
  simp [getParentHash, hb]

/-- Below `long` itself, a header on the chain is stored under its hash. -/
theorem OnChain.eq_or_lt {long a : η} (ha : s.OnChain long a) :
    a = long ∨ numberU64 a < numberU64 long ∧ s.get (hash a) = some a := by
  induction ha with
  | self => exact .inl rfl
  | parent hb hp hnum ih =>
    refine .inr ⟨?_, by rwa [s.hash_of_get hp]⟩
    rcases ih with rfl | ⟨hlt, -⟩ <;> omega

end HeaderStore

/-- The parent walk of `isSameChain`, one step at its end. -/
theorem walkParents_succ (g : Hash → Hash) (n : Nat) (h : Hash) :
    walkParents g (n + 1) h = (walkParents g n h).bind fun h' =>
      if g h' = emptyHash then .error (.crit "mysteriously missing blocks") else .ok (g h') := by
  induction n generalizing h with
  | zero =>
    simp only [walkParents, Except.bind]
  | succ n ih =>
    rw [walkParents]
    conv_rhs => rw [walkParents]
    split_ifs with hg
    · rfl
    · exact ih (g h)

namespace HeaderStore

variable {η θ : Type} [IHeader η] [IHeader θ] {s : HeaderStore η}

/-- Walking `n` parents up from `long`'s parent reaches the header of the chain
`n + 1` heights below `long`. -/
theorem OnChain.walkParents_eq {long a : η} (ha : s.OnChain long a)
    (hlt : numberU64 a < numberU64 long) :
    walkParents s.getParentHash (numberU64 long - numberU64 a - 1) (IHeader.getParentHash long) =
      .ok (hash a) := by
  induction ha with
  | self => exact absurd hlt (Nat.lt_irrefl _)
  | parent hb hp hnum ih =>
    rename_i b p
    rcases hb.eq_or_lt with hbl | ⟨hblt, hbs⟩
    · -- the parent of `long` itself: no step
      rw [hbl] at hp hnum
      rw [show numberU64 long - numberU64 p - 1 = 0 by omega, walkParents, s.hash_of_get hp]
    · -- one step more than to `b`, from `b`'s stored header to its parent
      have hparent : s.getParentHash (hash b) = IHeader.getParentHash b := getParentHash_of_get hbs
      have hne : IHeader.getParentHash b ≠ emptyHash := by
        intro he
        rw [he, s.get_emptyHash] at hp
        cases hp
      rw [show numberU64 long - numberU64 p - 1 = (numberU64 long - numberU64 b - 1) + 1 by omega,
        walkParents_succ, ih hblt, Except.bind, hparent, if_neg hne, s.hash_of_get hp]

/-- The chain has one header at each height it reaches. -/
theorem OnChain.hash_eq {long a a' : η} (ha : s.OnChain long a) (ha' : s.OnChain long a')
    (hnum : numberU64 a = numberU64 a') : hash a = hash a' := by
  rcases ha.eq_or_lt with rfl | ⟨hlt, -⟩
  · rcases ha'.eq_or_lt with rfl | ⟨hlt', -⟩
    · rfl
    · omega
  · have hw := ha.walkParents_eq hlt
    rw [hnum, ha'.walkParents_eq (hnum ▸ hlt)] at hw
    exact (Except.ok.inj hw).symm

theorem OnChain.trans {long m a : η} (hm : s.OnChain long m) (ha : s.OnChain m a) :
    s.OnChain long a := by
  induction ha with
  | self => exact hm
  | parent _ hp hnum ih => exact .parent ih hp hnum

end HeaderStore

section FastPaths

variable {η θ : Type} [IHeader η] [IHeader θ]

/-- The shortcuts of `isSameChain` answer what the walk of `diff - 1` parents from
`long`'s parent (no walk at all at equal heights) answers. -/
theorem isSameChain_eq_walk (g : Hash → Hash) (long : η) (short : θ)
    (hle : numberU64 short ≤ numberU64 long) :
    isSameChain g long short =
      (if numberU64 short = numberU64 long then .ok (hash long)
        else walkParents g (numberU64 long - numberU64 short - 1) (IHeader.getParentHash long)).map
        fun h => h == hash short := by
  unfold isSameChain
  rw [if_neg (Nat.not_lt.mpr hle)]
  by_cases heq : numberU64 short = numberU64 long
  · rw [if_pos heq, if_pos heq]
    simp [Except.map, eq_comm]
  · rw [if_neg heq, if_neg heq]
    by_cases hsucc : numberU64 short + 1 = numberU64 long
    · rw [if_pos hsucc, show numberU64 long - numberU64 short - 1 = 0 by omega, walkParents]
      simp [Except.map, eq_comm]
    · rw [if_neg hsucc]
      cases walkParents g (numberU64 long - numberU64 short - 1) (IHeader.getParentHash long) <;> rfl

end FastPaths

/-- `isSameChain` with its shortcuts is the parent walk; over a header database in
which the ancestor of `long` at `short`'s height is stored, it returns, and answers
`true` exactly when `short` has the hash of that ancestor. -/
theorem isSameChain_decides_ancestry {η θ : Type} [IHeader η] [IHeader θ] :
    (∀ (g : Hash → Hash) (long : η) (short : θ), numberU64 short ≤ numberU64 long →
      isSameChain g long short =
        (if numberU64 short = numberU64 long then .ok (hash long)
          else walkParents g (numberU64 long - numberU64 short - 1)
            (IHeader.getParentHash long)).map fun h => h == hash short) ∧
    (∀ (s : HeaderStore η) (long : η) (short : θ),
      (∃ a, s.OnChain long a ∧ numberU64 a = numberU64 short) →
      ∃ r, isSameChain s.getParentHash long short = .ok r ∧
        (r = true ↔ ∃ a, s.OnChain long a ∧ numberU64 a = numberU64 short ∧ hash a = hash short)) := by
  refine ⟨isSameChain_eq_walk, fun s long short ⟨a, ha, hnum⟩ => ?_⟩
  have hle : numberU64 short ≤ numberU64 long := by
    rcases ha.eq_or_lt with rfl | ⟨hlt, -⟩ <;> omega
  -- the walk, or no walk at equal heights, lands on `a`
  have hland : (if numberU64 short = numberU64 long then Except.ok (hash long)
      else walkParents s.getParentHash (numberU64 long - numberU64 short - 1)
        (IHeader.getParentHash long)) = (.ok (hash a) : Except Failure Hash) := by
    rcases ha.eq_or_lt with rfl | ⟨hlt, -⟩
    · rw [if_pos hnum.symm]
    · rw [if_neg (by omega), ← hnum, ha.walkParents_eq hlt]
  refine ⟨hash a == hash short, by rw [isSameChain_eq_walk _ _ _ hle, hland]; rfl, ?_⟩
  constructor
  · intro h
    exact ⟨a, ha, hnum, beq_iff_eq.mp h⟩
  · rintro ⟨a', ha', hnum', hhash⟩
    rw [ha.hash_eq ha' (hnum.trans hnum'.symm), hhash]
    exact beq_self_eq_true _

end Core
