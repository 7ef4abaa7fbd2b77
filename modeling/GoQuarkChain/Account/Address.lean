import GoQuarkChain.Account.Branch
import GoQuarkChain.State.StateDB

/-!
# Branches built from their parts, and addresses moved into a branch

`CreatBranch` packs a chain id, a power-of-two shard size and a shard id into a
branch. `AddressInBranch` keeps an address's recipient and the bits of the low
half of its full shard key above the shard size's bit, and puts the branch's
chain id above them and its shard id below. Values are `uint32`: `^x` is the
complement within 32 bits, and a sum or a shift wraps modulo `2 ^ 32`.
-/

namespace Account

/-- `^x` on a `uint32`. -/
def not32 (x : Nat) : Nat := x ^^^ (2 ^ 32 - 1)

/-- `CreatBranch`. -/
def creatBranch (chainID shardSize shardID : Nat) : Except String Branch :=
  if isP2 shardSize = false then .error "shardSize is not correct"
  else .ok ⟨(chainID <<< 16) % 2 ^ 32 ||| shardSize ||| shardID⟩

end Account

namespace State

/-- `Address.GetFullShardID`: the full shard id of the address in a chain of `shardSize` shards. -/
def Address.getFullShardID (a : Address) (shardSize : Nat) : Except String Nat :=
  if Account.isP2 shardSize = false then .error s!"shardSize is not right shardSize:{shardSize}"
  else
    let chainID := a.fullShardKey >>> 16
    let shardID := a.fullShardKey &&& Account.sub32 shardSize 1
    .ok ((chainID <<< 16) % 2 ^ 32 ||| shardSize ||| shardID)

/-- `Address.AddressInBranch`. -/
def Address.addressInBranch (a : Address) (branch : Account.Branch) : Address :=
  let shardKey := a.fullShardKey &&& (2 ^ 16 - 1)
  let newShardKey :=
    ((shardKey &&& Account.not32 (Account.sub32 branch.getShardSize 1)) + branch.getShardID) %
      2 ^ 32
  let newFullShardKey := (branch.getChainID <<< 16) % 2 ^ 32 ||| newShardKey
  ⟨a.recipient, newFullShardKey⟩

end State

namespace Account

open State

section Pow

variable {k : Nat}

theorem sub32_two_pow_one (hk : k < 32) : sub32 (2 ^ k) 1 = 2 ^ k - 1 := by
  have hpos := Nat.two_pow_pos k
  have hsmall : 2 ^ k < 2 ^ 32 := Nat.pow_lt_pow_right (by decide) hk
  rw [sub32, show 2 ^ k + 2 ^ 32 - 1 = (2 ^ k - 1) + 2 ^ 32 by omega, Nat.add_mod_right,
    Nat.mod_eq_of_lt (by omega)]

theorem isP2_two_pow (hk : k < 32) : isP2 (2 ^ k) = true := by
  rw [isP2, sub32_two_pow_one hk, Nat.and_two_pow_sub_one_eq_mod, Nat.mod_self]
  rfl

/-- Below `2 ^ 16`, a chain id shifted into the high half does not wrap. -/
theorem shiftLeft_sixteen_mod {c : Nat} (hc : c < 2 ^ 16) : (c <<< 16) % 2 ^ 32 = c <<< 16 := by
  rw [Nat.shiftLeft_eq]
  exact Nat.mod_eq_of_lt (by omega)

/-- The bits of `x < 2 ^ n` from `k` up, with `i < 2 ^ k` below them, stay below `2 ^ n`. -/
theorem two_pow_mul_div_add_lt {x n i : Nat} (hx : x < 2 ^ n) (hkn : k ≤ n) (hi : i < 2 ^ k) :
    2 ^ k * (x / 2 ^ k) + i < 2 ^ n := by
  have hq : x / 2 ^ k < 2 ^ (n - k) := by
    rw [Nat.div_lt_iff_lt_mul (Nat.two_pow_pos k), ← Nat.pow_add, Nat.sub_add_cancel hkn]
    exact hx
  have hle : 2 ^ k * (x / 2 ^ k + 1) ≤ 2 ^ k * 2 ^ (n - k) := Nat.mul_le_mul_left _ hq
  rw [← Nat.pow_add, Nat.add_sub_cancel' hkn, Nat.mul_add, Nat.mul_one] at hle
  omega

/-- Clearing the bits below the shard size's. -/
theorem and_not32_eq {x : Nat} (hx : x < 2 ^ 16) (hk : k < 16) :
    x &&& not32 (2 ^ k - 1) = 2 ^ k * (x / 2 ^ k) := by
  apply Nat.eq_of_testBit_eq
  intro j
  rw [Nat.testBit_and, not32, Nat.testBit_xor, Nat.testBit_two_pow_sub_one,
    Nat.testBit_two_pow_sub_one, Nat.mul_comm, Nat.testBit_mul_two_pow, Nat.testBit_div_two_pow]
  by_cases hj : j < 16
  · by_cases hjk : j < k
    · simp [hjk, show j < 32 by omega]
    · simp [hjk, show j < 32 by omega, show k ≤ j by omega, Nat.sub_add_cancel (Nat.le_of_not_lt hjk)]
  · rw [Nat.sub_add_cancel (show k ≤ j by omega),
      Nat.testBit_lt_two_pow (Nat.lt_of_lt_of_le hx (Nat.pow_le_pow_right (by decide) (by omega)))]
    simp

end Pow

section InBranch

variable {c k i : Nat} (hc : c < 2 ^ 16) (hk : k < 16) (hi : i < 2 ^ k)
include hc hk hi

omit hi in
theorem creatBranch_eq : creatBranch c (2 ^ k) i = .ok ⟨getFullShardId c (2 ^ k) i⟩ := by
  rw [creatBranch, isP2_two_pow (by omega), shiftLeft_sixteen_mod hc]
  rfl

/-- An address moved into the branch of `(c, 2 ^ k, i)`: the chain id, the low
half's bits from `k` up, and the shard id. -/
theorem fullShardKey_addressInBranch (a : Address) :
    (a.addressInBranch ⟨getFullShardId c (2 ^ k) i⟩).fullShardKey =
      2 ^ 16 * c + (2 ^ k * (a.fullShardKey % 2 ^ 16 / 2 ^ k) + i) := by
  have hlow : a.fullShardKey % 2 ^ 16 < 2 ^ 16 := Nat.mod_lt _ (by decide)
  have hq := two_pow_mul_div_add_lt hlow (Nat.le_of_lt hk) hi
  simp only [Address.addressInBranch, Branch.getShardSize_getFullShardId hk hi,
    Branch.getShardID_getFullShardId hk hi, Branch.getChainID_getFullShardId hk hi,
    sub32_two_pow_one (show k < 32 by omega), Nat.and_two_pow_sub_one_eq_mod,
    and_not32_eq hlow hk, Nat.mod_eq_of_lt (Nat.lt_trans hq (by decide : (2 : Nat) ^ 16 < 2 ^ 32)),
    shiftLeft_sixteen_mod hc]
  rw [Nat.shiftLeft_eq, Nat.mul_comm c, Nat.two_pow_add_eq_or_of_lt hq]

theorem isInBranch_addressInBranch (a : Address) :
    Branch.isInBranch ⟨getFullShardId c (2 ^ k) i⟩
      (a.addressInBranch ⟨getFullShardId c (2 ^ k) i⟩).fullShardKey = true := by
  have hq := two_pow_mul_div_add_lt (Nat.mod_lt a.fullShardKey (by decide : 0 < 2 ^ 16))
    (Nat.le_of_lt hk) hi
  rw [Branch.isInBranch_getFullShardId hk hi, fullShardKey_addressInBranch hc hk hi]
  constructor
  · rw [Nat.shiftRight_eq_div_pow, Nat.mul_add_div (Nat.two_pow_pos 16), Nat.div_eq_of_lt hq,
      Nat.add_zero]
  · -- `2 ^ 16 * c` and `2 ^ k * q` are multiples of `2 ^ k`
    have hsplit : 2 ^ 16 * c + (2 ^ k * (a.fullShardKey % 2 ^ 16 / 2 ^ k) + i) =
        (2 ^ (16 - k) * c + a.fullShardKey % 2 ^ 16 / 2 ^ k) * 2 ^ k + i := by
      rw [show (2 : Nat) ^ 16 = 2 ^ (16 - k) * 2 ^ k by
        rw [← Nat.pow_add, Nat.sub_add_cancel (Nat.le_of_lt hk)]]
      ring
    rw [hsplit, Nat.mul_add_mod_of_lt hi]

/-- Moving an address into the branch keeps the bits of the low half of its
full shard key from the shard size's bit up. -/
theorem testBit_addressInBranch (a : Address) {j : Nat} (hkj : k ≤ j) (hj : j < 16) :
    (a.addressInBranch ⟨getFullShardId c (2 ^ k) i⟩).fullShardKey.testBit j =
      a.fullShardKey.testBit j := by
  have hq := two_pow_mul_div_add_lt (Nat.mod_lt a.fullShardKey (by decide : 0 < 2 ^ 16))
    (Nat.le_of_lt hk) hi
  rw [fullShardKey_addressInBranch hc hk hi, Nat.testBit_two_pow_mul_add _ hq, if_pos hj,
    Nat.testBit_two_pow_mul_add _ hi, if_neg (Nat.not_lt.mpr hkj), Nat.testBit_div_two_pow,
    Nat.sub_add_cancel hkj, Nat.testBit_mod_two_pow, decide_eq_true hj, Bool.true_and]

end InBranch

/-- `CreatBranch` of a chain id below `2 ^ 16`, a power-of-two shard size up to
`2 ^ 15` and a shard id below it gives back its three parts, and every address
moved into that branch is in it, with its recipient and the bits of the low half
of its full shard key from the size's bit up. -/
theorem creatBranch_addressInBranch (chainID shardSize shardID : Nat) (hchain : chainID < 2 ^ 16)
    (hp2 : ∃ k, shardSize = 2 ^ k) (hsize : shardSize ≤ 2 ^ 15) (hid : shardID < shardSize) :
    ∃ b, creatBranch chainID shardSize shardID = .ok b ∧ b.getChainID = chainID ∧
      b.getShardSize = shardSize ∧ b.getShardID = shardID ∧
      ∀ a : Address, b.isInBranch (a.addressInBranch b).fullShardKey = true ∧
        (a.addressInBranch b).recipient = a.recipient ∧
        ∀ j, Nat.log2 shardSize ≤ j → j < 16 →
          (a.addressInBranch b).fullShardKey.testBit j = a.fullShardKey.testBit j := by
  obtain ⟨k, rfl⟩ := hp2
  have hk : k < 16 := by
    have hle : k ≤ 15 := (Nat.pow_le_pow_iff_right (by decide)).mp hsize
    omega
  refine ⟨_, creatBranch_eq hchain hk, Branch.getChainID_getFullShardId hk hid,
    Branch.getShardSize_getFullShardId hk hid, Branch.getShardID_getFullShardId hk hid,
    fun a => ⟨isInBranch_addressInBranch hchain hk hid a, rfl, fun j hj hj16 => ?_⟩⟩
  rw [Nat.log2_two_pow] at hj
  exact testBit_addressInBranch hchain hk hid a hj hj16

theorem creatBranch_addressInBranch_four_shards :
    ∃ b, creatBranch 1 4 3 = .ok b ∧ b.getChainID = 1 ∧ b.getShardSize = 4 ∧ b.getShardID = 3 ∧
      ∀ a : Address, b.isInBranch (a.addressInBranch b).fullShardKey = true ∧
        (a.addressInBranch b).recipient = a.recipient ∧
        ∀ j, Nat.log2 4 ≤ j → j < 16 →
          (a.addressInBranch b).fullShardKey.testBit j = a.fullShardKey.testBit j :=
  creatBranch_addressInBranch 1 4 3 (by decide) ⟨2, rfl⟩ (by decide) (by decide)

end Account
