import Mathlib

/-!
# Branches and neighbourhood of the `account` package

A `Branch` is a full shard id, a `uint32` with the chain id in its high 16
bits and `shardSize | shardID` in its low 16 bits. Values are natural numbers
below `2 ^ 32`; the two `uint32` subtractions of the source that can wrap are
written with `sub32`, and a shift by 32 bits or more gives zero as in Go.
-/

namespace Account

/-- `uint32` subtraction. -/
def sub32 (a b : Nat) : Nat := (a + 2 ^ 32 - b) % 2 ^ 32

/-- `common.IntLeftMostBit`: `32 - bits.LeadingZeros32(v)`. -/
def intLeftMostBit (v : Nat) : Nat := if v = 0 then 0 else Nat.log2 v + 1

/-- `uint32` left shift of one: zero once the shift reaches the width. -/
def shl32One (s : Nat) : Nat := if s < 32 then 2 ^ s else 0

/-- `common.IsP2`, over `uint32`. -/
def isP2 (shardSize : Nat) : Bool := shardSize &&& sub32 shardSize 1 == 0

structure Branch where
  value : Nat
deriving DecidableEq, Repr

def Branch.getChainID (b : Branch) : Nat := b.value >>> 16

def Branch.getShardSize (b : Branch) : Nat :=
  shl32One (sub32 (intLeftMostBit (b.value &&& (2 ^ 16 - 1))) 1)

def Branch.getFullShardID (b : Branch) : Nat := b.value

def Branch.getShardID (b : Branch) : Nat := (b.value &&& (2 ^ 16 - 1)) ^^^ b.getShardSize

/-- `Branch.IsInBranch`. -/
def Branch.isInBranch (b : Branch) (fullShardKey : Nat) : Bool :=
  fullShardKey >>> 16 == b.getChainID &&
    (fullShardKey &&& sub32 b.getShardSize 1) == b.getShardID

def absUint32 (a b : Nat) : Nat := if a > b then a - b else b - a

/-- `IsNeighbor`: with at most 32 shards every pair is a neighbour; otherwise
the two must share the chain or the shard and differ by a power of two in the
other coordinate. -/
def isNeighbor (b1 b2 : Branch) (shardSize : Nat) : Bool :=
  if shardSize ≤ 32 then true
  else if b1.getChainID = b2.getChainID then isP2 (absUint32 b1.getShardID b2.getShardID)
  else if b1.getShardID = b2.getShardID then isP2 (absUint32 b1.getChainID b2.getChainID)
  else false

/-! ### Branches packed from their parts -/
/-- `ShardConfig.GetFullShardId`: a chain id, a shard size and a shard id
packed into one full shard id. -/
def getFullShardId (chainID shardSize shardID : Nat) : Nat := chainID <<< 16 ||| shardSize ||| shardID

section Packing

variable {c k i : Nat}

/-- A shard id below the size `2 ^ k` keeps the pair below any higher power. -/
theorem two_pow_add_lt {j : Nat} (hi : i < 2 ^ k) (hkj : k < j) : 2 ^ k + i < 2 ^ j := by
  have hle : 2 ^ (k + 1) ≤ 2 ^ j := Nat.pow_le_pow_right (by decide) hkj
  rw [Nat.pow_succ] at hle
  omega

/-- With a shard size `2 ^ k` below `2 ^ 16` and a shard id below the size, the
three parts occupy disjoint bits: the packing is a sum. -/
theorem getFullShardId_eq (c : Nat) (hk : k < 16) (hi : i < 2 ^ k) :
    getFullShardId c (2 ^ k) i = 2 ^ 16 * c + (2 ^ k + i) := by
  have hsize : 2 ^ k ||| i = 2 ^ k + i := by
    simpa using (Nat.two_pow_add_eq_or_of_lt hi 1).symm
  rw [getFullShardId, Nat.shiftLeft_eq, Nat.or_assoc, hsize, Nat.mul_comm,
    Nat.two_pow_add_eq_or_of_lt (two_pow_add_lt hi hk)]

theorem log2_two_pow_add (hi : i < 2 ^ k) : (2 ^ k + i).log2 = k := by
  have hpos := Nat.two_pow_pos k
  rw [Nat.log2_eq_iff (by omega)]
  exact ⟨Nat.le_add_right _ _, two_pow_add_lt hi (Nat.lt_succ_self k)⟩

theorem two_pow_add_xor (hi : i < 2 ^ k) : (2 ^ k + i) ^^^ 2 ^ k = i := by
  apply Nat.eq_of_testBit_eq
  intro j
  rw [Nat.testBit_xor, Nat.testBit_two_pow]
  rcases Nat.lt_trichotomy j k with hj | rfl | hj
  · rw [Nat.testBit_two_pow_add_gt hj, decide_eq_false (by omega), Bool.xor_false]
  · rw [Nat.testBit_two_pow_add_eq, Nat.testBit_lt_two_pow hi]
    simp
  · have hij : i < 2 ^ j := Nat.lt_trans hi (Nat.pow_lt_pow_right (by decide) hj)
    rw [Nat.testBit_lt_two_pow (two_pow_add_lt hi hj), Nat.testBit_lt_two_pow hij,
      decide_eq_false (by omega)]
    rfl

variable (hk : k < 16) (hi : i < 2 ^ k)
include hk hi

theorem Branch.getChainID_getFullShardId :
    (Branch.mk (getFullShardId c (2 ^ k) i)).getChainID = c := by
  rw [Branch.getChainID, getFullShardId_eq c hk hi, Nat.shiftRight_eq_div_pow,
    Nat.mul_add_div (Nat.two_pow_pos 16), Nat.div_eq_of_lt (two_pow_add_lt hi hk), Nat.add_zero]

theorem Branch.low_getFullShardId :
    getFullShardId c (2 ^ k) i &&& (2 ^ 16 - 1) = 2 ^ k + i := by
  rw [Nat.and_two_pow_sub_one_eq_mod, getFullShardId_eq c hk hi, Nat.mul_add_mod,
    Nat.mod_eq_of_lt (two_pow_add_lt hi hk)]

theorem Branch.getShardSize_getFullShardId :
    (Branch.mk (getFullShardId c (2 ^ k) i)).getShardSize = 2 ^ k := by
  rw [Branch.getShardSize, Branch.low_getFullShardId hk hi, intLeftMostBit,
    if_neg (by have := Nat.two_pow_pos k; omega), log2_two_pow_add hi, sub32, shl32One]
  have hmod : (k + 1 + 2 ^ 32 - 1) % 2 ^ 32 = k := by
    rw [show k + 1 + 2 ^ 32 - 1 = k + 2 ^ 32 by omega, Nat.add_mod_right,
      Nat.mod_eq_of_lt (by omega)]
  rw [hmod, if_pos (by omega)]

theorem Branch.getShardID_getFullShardId :
    (Branch.mk (getFullShardId c (2 ^ k) i)).getShardID = i := by
  rw [Branch.getShardID, Branch.getShardSize_getFullShardId hk hi, Branch.low_getFullShardId hk hi,
    two_pow_add_xor hi]

/-- A shard's branch holds a full shard key when the key is of the shard's
chain and its low bits, cut to the shard size, are the shard id. -/
theorem Branch.isInBranch_getFullShardId (key : Nat) :
    (Branch.mk (getFullShardId c (2 ^ k) i)).isInBranch key = true ↔
      key >>> 16 = c ∧ key % 2 ^ k = i := by
  have hsub : sub32 (2 ^ k) 1 = 2 ^ k - 1 := by
    have hpos := Nat.two_pow_pos k
    have hsmall : 2 ^ k < 2 ^ 32 := Nat.pow_lt_pow_right (by decide) (by omega)
    rw [sub32, show 2 ^ k + 2 ^ 32 - 1 = (2 ^ k - 1) + 2 ^ 32 by omega, Nat.add_mod_right,
      Nat.mod_eq_of_lt (by omega)]
  rw [Branch.isInBranch, Branch.getChainID_getFullShardId hk hi, Branch.getShardSize_getFullShardId hk hi,
    Branch.getShardID_getFullShardId hk hi, hsub, Nat.and_two_pow_sub_one_eq_mod]
  simp

end Packing

end Account
