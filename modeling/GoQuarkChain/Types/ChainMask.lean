import GoQuarkChain.Account.Address

/-!
# Chain masks

A `ChainMask` (core/types/chainmask.go) stands for the chains whose ids end in
the bits of the mask below its leading one: mask `1` matches every chain,
`0b10` the even ones, `0b101` those ending in `01`. A full shard id carries its
chain id in its high 16 bits. `common.MasksHaveOverlap` compares two masks below
the leading bit of the shorter one, and a slave overlaps a mask when one of its
own masks does (`SlaveConnection.hasOverlap`).

Values are naturals below `2 ^ 32` with the `uint32` arithmetic of
`Account.Branch`. Both functions build the same mask of the bits below a
leading one, `uint32((1 << (i - 1)) - 1)`, which is `lowBitMask`. For a zero
mask `i - 1` wraps, the shift goes past the width, and the mask is all ones.

The main result is that two masks overlap exactly when some chain id is matched
by both; its number theory is the first section, on residues modulo powers of
two.
-/

/-! ## Residues modulo powers of two -/

section Residues

variable {x y a b n : Nat}

theorem mod_two_pow_mod_of_le (h : a ≤ b) (x : Nat) : x % 2 ^ b % 2 ^ a = x % 2 ^ a :=
  Nat.mod_mod_of_dvd x (Nat.pow_dvd_pow 2 h)

/-- A residue modulo `2 ^ b` that agrees with `x` below the smaller power `2 ^ a`. -/
theorem common_residue_of_le (hab : a ≤ b) (h : x % 2 ^ a = y % 2 ^ a) :
    y % 2 ^ b % 2 ^ a = x % 2 ^ a ∧ y % 2 ^ b % 2 ^ b = y % 2 ^ b := by
  constructor
  · rw [mod_two_pow_mod_of_le hab, h]
  · exact Nat.mod_mod _ _

/-- Residue conditions modulo `2 ^ a` and `2 ^ b` have a common solution below `2 ^ n`
exactly when they agree modulo the smaller power. -/
theorem exists_common_residue_iff (ha : a ≤ n) (hb : b ≤ n) :
    (∃ c < 2 ^ n, c % 2 ^ a = x % 2 ^ a ∧ c % 2 ^ b = y % 2 ^ b) ↔
      x % 2 ^ min a b = y % 2 ^ min a b := by
  constructor
  · rintro ⟨c, -, hx, hy⟩
    rw [← mod_two_pow_mod_of_le (Nat.min_le_left a b) x, ← hx,
      ← mod_two_pow_mod_of_le (Nat.min_le_right a b) y, ← hy,
      mod_two_pow_mod_of_le (Nat.min_le_left a b), mod_two_pow_mod_of_le (Nat.min_le_right a b)]
  · intro h
    rcases le_total a b with hab | hba
    · -- the longer condition is `y`'s: take its residue
      rw [Nat.min_eq_left hab] at h
      have hlt : y % 2 ^ b < 2 ^ n :=
        Nat.lt_of_lt_of_le (Nat.mod_lt _ (Nat.two_pow_pos b)) (Nat.pow_le_pow_right (by decide) hb)
      exact ⟨y % 2 ^ b, hlt, common_residue_of_le hab h⟩
    · rw [Nat.min_eq_right hba] at h
      have hlt : x % 2 ^ a < 2 ^ n :=
        Nat.lt_of_lt_of_le (Nat.mod_lt _ (Nat.two_pow_pos a)) (Nat.pow_le_pow_right (by decide) ha)
      obtain ⟨hy, hx⟩ := common_residue_of_le hba h.symm
      exact ⟨x % 2 ^ a, hlt, hx, hy⟩

end Residues

namespace Types

open Account

structure ChainMask where
  value : Nat
deriving DecidableEq, Repr

/-- `NewChainMask`: there is no mask of zero. -/
def newChainMask (value : Nat) : Option ChainMask :=
  if value = 0 then none else some ⟨value⟩

def ChainMask.getMask (c : ChainMask) : Nat := c.value

/-- `uint32((1 << (i - 1)) - 1)`: the bits below the leading one of a value whose
`IntLeftMostBit` is `i`. -/
def lowBitMask (i : Nat) : Nat := sub32 (shl32One (sub32 i 1)) 1

def ChainMask.containFullShardId (c : ChainMask) (fullShardId : Nat) : Bool :=
  let chainId := fullShardId >>> 16
  let bitMask := lowBitMask (intLeftMostBit c.value)
  (bitMask &&& chainId) == (c.value &&& bitMask)

def ChainMask.containBranch (c : ChainMask) (branch : Branch) : Bool :=
  c.containFullShardId branch.getFullShardID

/-- `common.MasksHaveOverlap`. -/
def masksHaveOverlap (m1 m2 : Nat) : Bool :=
  let i1 := intLeftMostBit m1
  let i2 := intLeftMostBit m2
  let i1 := if i1 > i2 then i2 else i1
  let bitMask := lowBitMask i1
  (m1 &&& bitMask) == (m2 &&& bitMask)

def ChainMask.hasOverlap (c : ChainMask) (value : Nat) : Bool :=
  masksHaveOverlap c.value value

/-- `SlaveConnection.hasOverlap`: some mask of the slave overlaps `chainMask`. -/
def hasOverlap (shardMaskList : List ChainMask) (chainMask : ChainMask) : Bool :=
  shardMaskList.any fun localChainMask => localChainMask.hasOverlap chainMask.getMask

/-! ## The mask below the leading bit -/

section LowBits

variable {m i : Nat}

theorem sub32_one (h1 : 1 ≤ i) (h2 : i ≤ 2 ^ 32) : sub32 i 1 = i - 1 := by
  rw [sub32, show i + 2 ^ 32 - 1 = (i - 1) + 2 ^ 32 by omega, Nat.add_mod_right,
    Nat.mod_eq_of_lt (by omega)]

theorem intLeftMostBit_pos (h : 0 < m) : 1 ≤ intLeftMostBit m := by
  rw [intLeftMostBit, if_neg (Nat.pos_iff_ne_zero.mp h)]
  omega

theorem intLeftMostBit_le {k : Nat} (h : m < 2 ^ k) : intLeftMostBit m ≤ k := by
  unfold intLeftMostBit
  split
  · exact Nat.zero_le k
  · rename_i hm
    have := (Nat.log2_lt hm).mpr h
    omega

theorem intLeftMostBit_eq {p : Nat} (h1 : 2 ^ p ≤ m) (h2 : m < 2 ^ (p + 1)) :
    intLeftMostBit m = p + 1 := by
  have hm : m ≠ 0 := Nat.pos_iff_ne_zero.mp (Nat.lt_of_lt_of_le (Nat.two_pow_pos p) h1)
  rw [intLeftMostBit, if_neg hm, (Nat.log2_eq_iff hm).mpr ⟨h1, h2⟩]

theorem lowBitMask_of_pos (h1 : 1 ≤ i) (h2 : i ≤ 32) : lowBitMask i = 2 ^ (i - 1) - 1 := by
  rw [lowBitMask, sub32_one h1 (by omega), shl32One, if_pos (by omega),
    sub32_two_pow_one (by omega)]

theorem lowBitMask_zero : lowBitMask 0 = 2 ^ 32 - 1 := by
  decide

theorem and_lowBitMask (h1 : 1 ≤ i) (h2 : i ≤ 32) (x : Nat) :
    x &&& lowBitMask i = x % 2 ^ (i - 1) := by
  rw [lowBitMask_of_pos h1 h2, Nat.and_two_pow_sub_one_eq_mod]

theorem lowBitMask_and (h1 : 1 ≤ i) (h2 : i ≤ 32) (x : Nat) :
    lowBitMask i &&& x = x % 2 ^ (i - 1) := by
  rw [Nat.and_comm, and_lowBitMask h1 h2]

/-- The chain id of a full shard id packed from a chain id and shard bits. -/
theorem shiftRight_pack {c s : Nat} (hs : s < 2 ^ 16) : (c <<< 16 ||| s) >>> 16 = c := by
  have hpack : c <<< 16 ||| s = 2 ^ 16 * c + s := by
    rw [Nat.shiftLeft_eq, Nat.mul_comm]
    exact (Nat.two_pow_add_eq_or_of_lt hs c).symm
  rw [hpack, Nat.shiftRight_eq_div_pow, Nat.mul_add_div (Nat.two_pow_pos 16),
    Nat.div_eq_of_lt hs, Nat.add_zero]

end LowBits

/-! ## What a mask contains, and when two masks overlap -/

section Contain

variable {m m1 m2 : Nat}

theorem newChainMask_of_pos (h : 0 < m) : newChainMask m = some ⟨m⟩ := by
  rw [newChainMask, if_neg (Nat.pos_iff_ne_zero.mp h)]

/-- For a nonzero value, `NewChainMask(m).ContainFullShardId(id)` is the mask of `m`
containing `id`. -/
theorem newChainMask_contains (h : 0 < m) (fullShardId : Nat) :
    (∃ c, newChainMask m = some c ∧ c.containFullShardId fullShardId = true) ↔
      (ChainMask.mk m).containFullShardId fullShardId = true := by
  rw [newChainMask_of_pos h]
  constructor
  · rintro ⟨c, hc, hcontain⟩
    cases hc
    exact hcontain
  · intro hcontain
    exact ⟨_, rfl, hcontain⟩

/-- A nonzero mask contains the full shard ids whose chain id agrees with the mask below
its leading bit. -/
theorem containFullShardId_iff_of_pos (h : 0 < m) (hm : m < 2 ^ 32) (fullShardId : Nat) :
    (ChainMask.mk m).containFullShardId fullShardId = true ↔
      (fullShardId >>> 16) % 2 ^ (intLeftMostBit m - 1) = m % 2 ^ (intLeftMostBit m - 1) := by
  have h1 := intLeftMostBit_pos h
  have h2 := intLeftMostBit_le hm
  simp only [ChainMask.containFullShardId, lowBitMask_and h1 h2, and_lowBitMask h1 h2, beq_iff_eq]

example : (ChainMask.mk 0b101).containFullShardId (0b1001 <<< 16 ||| 3) = true ∧
    (ChainMask.mk 0b101).containFullShardId (0b11 <<< 16) = false := by
  decide

/-- The zero mask, which `NewChainMask` never builds, contains only chain `0`. -/
theorem containFullShardId_zero {fullShardId : Nat} (hid : fullShardId < 2 ^ 32) :
    (ChainMask.mk 0).containFullShardId fullShardId = true ↔ fullShardId >>> 16 = 0 := by
  have hchain : fullShardId >>> 16 < 2 ^ 32 := by
    rw [Nat.shiftRight_eq_div_pow]
    omega
  simp only [ChainMask.containFullShardId, intLeftMostBit, if_pos, lowBitMask_zero, beq_iff_eq]
  rw [Nat.and_comm, Nat.and_two_pow_sub_one_eq_mod, Nat.zero_and, Nat.mod_eq_of_lt hchain]

theorem masksHaveOverlap_iff_mod (h1 : 0 < m1) (hm1 : m1 < 2 ^ 32) (h2 : 0 < m2) :
    masksHaveOverlap m1 m2 = true ↔
      m1 % 2 ^ (min (intLeftMostBit m1) (intLeftMostBit m2) - 1) =
        m2 % 2 ^ (min (intLeftMostBit m1) (intLeftMostBit m2) - 1) := by
  have hk1 := intLeftMostBit_pos h1
  have hk2 := intLeftMostBit_pos h2
  have hl1 := intLeftMostBit_le hm1
  have hmin : (if intLeftMostBit m1 > intLeftMostBit m2 then intLeftMostBit m2
      else intLeftMostBit m1) = min (intLeftMostBit m1) (intLeftMostBit m2) := by
    split <;> omega
  simp only [masksHaveOverlap, hmin, and_lowBitMask (Nat.le_min.mpr ⟨hk1, hk2⟩)
    (Nat.le_trans (Nat.min_le_left _ _) hl1), beq_iff_eq]

example : masksHaveOverlap 0b101 0b11 = true ∧ masksHaveOverlap 0b101 0b10 = false := by
  decide

/-- Two masks of at most 17 bits overlap exactly when some chain id below `2 ^ 16`, with
any shard bits, is contained in both: the masks' conditions on the chain id have a common
solution just when they agree below the shorter leading bit. -/
theorem overlap_iff_common_chain (h1 : 0 < m1) (hm1 : m1 < 2 ^ 17) (h2 : 0 < m2)
    (hm2 : m2 < 2 ^ 17) {s : Nat} (hs : s < 2 ^ 16) :
    masksHaveOverlap m1 m2 = true ↔ ∃ c < 2 ^ 16,
      (ChainMask.mk m1).containFullShardId (c <<< 16 ||| s) = true ∧
        (ChainMask.mk m2).containFullShardId (c <<< 16 ||| s) = true := by
  have hm1' : m1 < 2 ^ 32 := Nat.lt_trans hm1 (by decide)
  have hm2' : m2 < 2 ^ 32 := Nat.lt_trans hm2 (by decide)
  have hl1 := intLeftMostBit_le hm1
  have hl2 := intLeftMostBit_le hm2
  have hmin : min (intLeftMostBit m1 - 1) (intLeftMostBit m2 - 1) =
      min (intLeftMostBit m1) (intLeftMostBit m2) - 1 := by
    omega
  simp only [containFullShardId_iff_of_pos h1 hm1', containFullShardId_iff_of_pos h2 hm2',
    shiftRight_pack hs]
  rw [exists_common_residue_iff (by omega) (by omega), hmin,
    masksHaveOverlap_iff_mod h1 hm1' h2]

/-- A slave overlaps a mask exactly when one of its masks serves a chain the mask serves. -/
theorem hasOverlap_iff_shared_chain {shardMaskList : List ChainMask} {chainMask : ChainMask}
    (hlist : ∀ l ∈ shardMaskList, 0 < l.value ∧ l.value < 2 ^ 17) (h : 0 < chainMask.value)
    (hm : chainMask.value < 2 ^ 17) {s : Nat} (hs : s < 2 ^ 16) :
    hasOverlap shardMaskList chainMask = true ↔ ∃ l ∈ shardMaskList, ∃ c < 2 ^ 16,
      l.containFullShardId (c <<< 16 ||| s) = true ∧
        chainMask.containFullShardId (c <<< 16 ||| s) = true := by
  simp only [hasOverlap, List.any_eq_true, ChainMask.hasOverlap, ChainMask.getMask]
  refine exists_congr fun l => and_congr_right fun hl => ?_
  obtain ⟨h1, hm1⟩ := hlist l hl
  exact overlap_iff_common_chain h1 hm1 h hm hs

/-- A slave with masks `0b101` and `0b110` overlaps `0b11`: mask `0b101` and `0b11` both
serve chain `1`. -/
theorem hasOverlap_iff_shared_chain_five_six :
    hasOverlap [⟨5⟩, ⟨6⟩] ⟨3⟩ = true ∧ ∃ l ∈ [(⟨5⟩ : ChainMask), ⟨6⟩], ∃ c < 2 ^ 16,
      l.containFullShardId (c <<< 16 ||| 0) = true ∧
        (⟨3⟩ : ChainMask).containFullShardId (c <<< 16 ||| 0) = true := by
  have hoverlap : hasOverlap [⟨5⟩, ⟨6⟩] ⟨3⟩ = true := by decide
  have hlist : ∀ l ∈ [(⟨5⟩ : ChainMask), ⟨6⟩], 0 < l.value ∧ l.value < 2 ^ 17 := by decide
  exact ⟨hoverlap,
    (hasOverlap_iff_shared_chain hlist (by decide) (by decide) (by decide)).mp hoverlap⟩

end Contain

theorem chainMask_overlap_iff_shared_chain :
    (∀ m1 m2 s : Nat, 1 ≤ m1 → m1 < 2 ^ 17 → 1 ≤ m2 → m2 < 2 ^ 17 → s < 2 ^ 16 →
      (masksHaveOverlap m1 m2 = true ↔ ∃ c < 2 ^ 16,
        (∃ c1, newChainMask m1 = some c1 ∧ c1.containFullShardId (c <<< 16 ||| s) = true) ∧
          ∃ c2, newChainMask m2 = some c2 ∧ c2.containFullShardId (c <<< 16 ||| s) = true)) ∧
    ∀ m fullShardId : Nat, m < 2 ^ 32 → fullShardId < 2 ^ 32 →
      (∀ fullShardId' : Nat, fullShardId' >>> 16 = fullShardId >>> 16 →
        (ChainMask.mk m).containFullShardId fullShardId' =
          (ChainMask.mk m).containFullShardId fullShardId) ∧
      ((ChainMask.mk m).containFullShardId fullShardId = true ↔
        (fullShardId >>> 16) % 2 ^ sub32 (intLeftMostBit m) 1 =
          m % 2 ^ sub32 (intLeftMostBit m) 1) := by
  constructor
  · intro m1 m2 s h1 hm1 h2 hm2 hs
    simp only [newChainMask_contains h1, newChainMask_contains h2]
    exact overlap_iff_common_chain h1 hm1 h2 hm2 hs
  · intro m fullShardId hm hid
    constructor
    · intro fullShardId' hchain
      simp only [ChainMask.containFullShardId, hchain]
    · rcases Nat.eq_zero_or_pos m with rfl | hpos
      · -- the zero mask: the wrapped `uint32` count of bits is wider than any chain id, and
        -- is kept abstract so that nothing evaluates the power
        have hwide : 16 ≤ sub32 (intLeftMostBit 0) 1 := by decide
        generalize sub32 (intLeftMostBit 0) 1 = k at hwide ⊢
        have hchain : fullShardId >>> 16 < 2 ^ k := by
          have hpow : 2 ^ 16 ≤ 2 ^ k := Nat.pow_le_pow_right (by decide) hwide
          rw [Nat.shiftRight_eq_div_pow]
          omega
        rw [containFullShardId_zero hid, Nat.mod_eq_of_lt hchain, Nat.zero_mod]
      · have hle := intLeftMostBit_le hm
        rw [containFullShardId_iff_of_pos hpos hm, sub32_one (intLeftMostBit_pos hpos) (by omega)]

/-- Masks `0b101` and `0b11` share chain `1`, and the zero mask contains no full shard id
of chain `1`. -/
theorem chainMask_overlap_on_masks_five_three :
    (∃ c < 2 ^ 16,
      (∃ c1, newChainMask 5 = some c1 ∧ c1.containFullShardId (c <<< 16 ||| 0) = true) ∧
        ∃ c2, newChainMask 3 = some c2 ∧ c2.containFullShardId (c <<< 16 ||| 0) = true) ∧
    ((ChainMask.mk 0).containFullShardId (1 <<< 16) = true ↔
      (1 <<< 16 >>> 16) % 2 ^ sub32 (intLeftMostBit 0) 1 = 0 % 2 ^ sub32 (intLeftMostBit 0) 1) :=
  ⟨(chainMask_overlap_iff_shared_chain.1 5 3 0 (by decide) (by decide) (by decide) (by decide)
      (by decide)).mp (by decide),
    (chainMask_overlap_iff_shared_chain.2 0 (1 <<< 16) (by decide) (by decide)).2⟩

end Types
