import GoQuarkChain.Config.QuarkChainConfig
import GoQuarkChain.Lib.Ledger

/-!
# The world state of a shard

`StateDB` holds the accounts (per-token balances, nonce, code, storage) and the
QuarkChain block fields that transaction processing reads and writes outside
the journal: the gas used, the block fee, the outgoing cross-shard deposits,
the refund counter and the block context. Addresses and hashes are numbers.
Balances are big integers read as zero when missing; the trie encoding of an
account skips zero balances, so an account is its balance function.
`SetBalance` panics on a negative result, and every subtraction modelled here
is guarded by a balance check at its call site.
-/

namespace State

/-- A 20-byte address, `common.Address` and `account.Recipient`. -/
abbrev Recipient := Nat

/-- `account.Address`: a recipient and its full shard key. -/
structure Address where
  recipient : Recipient
  fullShardKey : Nat
deriving DecidableEq, Repr

/-- `types.CrossShardTransactionDeposit`. -/
structure CrossShardTransactionDeposit where
  txHash : Nat
  fromAddr : Address
  toAddr : Address
  value : Nat
  gasPrice : Nat
  gasRemained : Nat
  gasTokenID : Nat
  transferTokenID : Nat
  messageData : List UInt8
  createContract : Bool
  isFromRootChain : Bool
deriving DecidableEq, Repr

/-- A state object: balances by token, nonce, code and storage. -/
structure Account where
  balances : Nat → Int
  nonce : Nat
  code : List UInt8
  storage : Nat → Nat

structure StateDB where
  accounts : Recipient → Account
  refund : Nat
  gasUsed : Nat
  xShardReceiveGasUsed : Nat
  blockFee : SortedMap Nat Int
  xShardList : List CrossShardTransactionDeposit
  timeStamp : Nat
  blockCoinbase : Recipient
  gasLimit : Nat
  senderDisallowMap : Recipient → Option Int
  quarkChainConfig : Config.QuarkChainConfig
  fullShardKey : Nat

namespace StateDB

variable (s : StateDB)

def getBalance (addr : Recipient) (tokenID : Nat) : Int := (s.accounts addr).balances tokenID

def getNonce (addr : Recipient) : Nat := (s.accounts addr).nonce

/-- Replace one account. -/
def modifyAccount (addr : Recipient) (f : Account → Account) : StateDB :=
  { s with accounts := Function.update s.accounts addr (f (s.accounts addr)) }

def setBalance (addr : Recipient) (amount : Int) (tokenID : Nat) : StateDB :=
  s.modifyAccount addr fun a =>
    { a with balances := Function.update a.balances tokenID amount }

/-- `AddBalance`; adding zero only touches the account. -/
def addBalance (addr : Recipient) (amount : Int) (tokenID : Nat) : StateDB :=
  s.setBalance addr (s.getBalance addr tokenID + amount) tokenID

def subBalance (addr : Recipient) (amount : Int) (tokenID : Nat) : StateDB :=
  s.setBalance addr (s.getBalance addr tokenID - amount) tokenID

def setNonce (addr : Recipient) (nonce : Nat) : StateDB :=
  s.modifyAccount addr fun a => { a with nonce := nonce }

def addGasUsed (gasUsed : Nat) : StateDB := { s with gasUsed := s.gasUsed + gasUsed }

/-- `AddBlockFee`: add each fee to the token's entry. -/
def addBlockFee (fee : SortedMap Nat Int) : StateDB :=
  { s with blockFee := s.blockFee.mergeWith (fun v pre => v + pre) fee }

def appendXShardList (d : CrossShardTransactionDeposit) : StateDB :=
  { s with xShardList := s.xShardList ++ [d] }

/-- `SubRefund`; the source panics below zero, and its one caller subtracts
the whole counter. -/
def subRefund (gas : Nat) : StateDB := { s with refund := s.refund - gas }

def setFullShardKey (k : Nat) : StateDB := { s with fullShardKey := k }

def getCode (addr : Recipient) : List UInt8 := (s.accounts addr).code

def setCode (addr : Recipient) (code : List UInt8) : StateDB :=
  s.modifyAccount addr fun a => { a with code := code }

/-- `CreateAccount`: a fresh account, which keeps the balances of the one it
replaces. -/
def createAccount (addr : Recipient) : StateDB :=
  s.modifyAccount addr fun a => ⟨a.balances, 0, [], fun _ => 0⟩

@[simp] theorem getBalance_setBalance (addr a : Recipient) (amount : Int) (tokenID t : Nat) :
    (s.setBalance addr amount tokenID).getBalance a t =
      if a = addr ∧ t = tokenID then amount else s.getBalance a t := by
  by_cases ha : a = addr
  · subst ha
    by_cases ht : t = tokenID
    · subst ht
      simp [getBalance, setBalance, modifyAccount]
    · simp [getBalance, setBalance, modifyAccount, ht]
  · simp [getBalance, setBalance, modifyAccount, ha]

@[simp] theorem getNonce_setBalance (addr a : Recipient) (amount : Int) (tokenID : Nat) :
    (s.setBalance addr amount tokenID).getNonce a = s.getNonce a := by
  by_cases ha : a = addr
  · subst ha
    simp [getNonce, setBalance, modifyAccount]
  · simp [getNonce, setBalance, modifyAccount, ha]

@[simp] theorem getNonce_setNonce (addr a : Recipient) (nonce : Nat) :
    (s.setNonce addr nonce).getNonce a = if a = addr then nonce else s.getNonce a := by
  by_cases ha : a = addr
  · subst ha
    simp [getNonce, setNonce, modifyAccount]
  · simp [getNonce, setNonce, modifyAccount, ha]

@[simp] theorem getBalance_setNonce (addr a : Recipient) (nonce t : Nat) :
    (s.setNonce addr nonce).getBalance a t = s.getBalance a t := by
  by_cases ha : a = addr
  · subst ha
    simp [getBalance, setNonce, modifyAccount]
  · simp [getBalance, setNonce, modifyAccount, ha]

@[simp] theorem getBalance_addBalance (addr a : Recipient) (amount : Int) (tokenID t : Nat) :
    (s.addBalance addr amount tokenID).getBalance a t =
      if a = addr ∧ t = tokenID then s.getBalance a t + amount else s.getBalance a t := by
  unfold addBalance
  rw [getBalance_setBalance]
  split
  · rename_i h
    obtain ⟨rfl, rfl⟩ := h
    rfl
  · rfl

@[simp] theorem getBalance_subBalance (addr a : Recipient) (amount : Int) (tokenID t : Nat) :
    (s.subBalance addr amount tokenID).getBalance a t =
      if a = addr ∧ t = tokenID then s.getBalance a t - amount else s.getBalance a t := by
  unfold subBalance
  rw [getBalance_setBalance]
  split
  · rename_i h
    obtain ⟨rfl, rfl⟩ := h
    rfl
  · rfl

@[simp] theorem getNonce_addBalance (addr a : Recipient) (amount : Int) (tokenID : Nat) :
    (s.addBalance addr amount tokenID).getNonce a = s.getNonce a := getNonce_setBalance ..

@[simp] theorem getNonce_subBalance (addr a : Recipient) (amount : Int) (tokenID : Nat) :
    (s.subBalance addr amount tokenID).getNonce a = s.getNonce a := getNonce_setBalance ..

@[simp] theorem getBalance_setCode (addr a : Recipient) (code : List UInt8) (t : Nat) :
    (s.setCode addr code).getBalance a t = s.getBalance a t := by
  by_cases ha : a = addr
  · subst ha
    simp [getBalance, setCode, modifyAccount]
  · simp [getBalance, setCode, modifyAccount, ha]

@[simp] theorem getNonce_setCode (addr a : Recipient) (code : List UInt8) :
    (s.setCode addr code).getNonce a = s.getNonce a := by
  by_cases ha : a = addr
  · subst ha
    simp [getNonce, setCode, modifyAccount]
  · simp [getNonce, setCode, modifyAccount, ha]

@[simp] theorem getCode_setBalance (addr a : Recipient) (amount : Int) (tokenID : Nat) :
    (s.setBalance addr amount tokenID).getCode a = s.getCode a := by
  by_cases ha : a = addr
  · subst ha
    simp [getCode, setBalance, modifyAccount]
  · simp [getCode, setBalance, modifyAccount, ha]

@[simp] theorem getCode_addBalance (addr a : Recipient) (amount : Int) (tokenID : Nat) :
    (s.addBalance addr amount tokenID).getCode a = s.getCode a := getCode_setBalance ..

@[simp] theorem getCode_subBalance (addr a : Recipient) (amount : Int) (tokenID : Nat) :
    (s.subBalance addr amount tokenID).getCode a = s.getCode a := getCode_setBalance ..

@[simp] theorem getCode_setNonce (addr a : Recipient) (nonce : Nat) :
    (s.setNonce addr nonce).getCode a = s.getCode a := by
  by_cases ha : a = addr
  · subst ha
    simp [getCode, setNonce, modifyAccount]
  · simp [getCode, setNonce, modifyAccount, ha]

@[simp] theorem getBalance_createAccount (addr a : Recipient) (t : Nat) :
    (s.createAccount addr).getBalance a t = s.getBalance a t := by
  by_cases ha : a = addr
  · subst ha
    simp [getBalance, createAccount, modifyAccount]
  · simp [getBalance, createAccount, modifyAccount, ha]

@[simp] theorem getNonce_createAccount (addr a : Recipient) :
    (s.createAccount addr).getNonce a = if a = addr then 0 else s.getNonce a := by
  by_cases ha : a = addr
  · subst ha
    simp [getNonce, createAccount, modifyAccount]
  · simp [getNonce, createAccount, modifyAccount, ha]

@[simp] theorem addBalance_zero (addr : Recipient) (tokenID : Nat) :
    s.addBalance addr 0 tokenID = s := by
  simp [addBalance, setBalance, modifyAccount, getBalance]

@[simp] theorem subBalance_zero (addr : Recipient) (tokenID : Nat) :
    s.subBalance addr 0 tokenID = s := by
  simp [subBalance, setBalance, modifyAccount, getBalance]

@[simp] theorem getNonce_addGasUsed (g : Nat) (a : Recipient) :
    (s.addGasUsed g).getNonce a = s.getNonce a := rfl

@[simp] theorem getNonce_addBlockFee (fee : SortedMap Nat Int) (a : Recipient) :
    (s.addBlockFee fee).getNonce a = s.getNonce a := rfl

@[simp] theorem getNonce_appendXShardList (d : CrossShardTransactionDeposit) (a : Recipient) :
    (s.appendXShardList d).getNonce a = s.getNonce a := rfl

@[simp] theorem getNonce_subRefund (g : Nat) (a : Recipient) :
    (s.subRefund g).getNonce a = s.getNonce a := rfl

@[simp] theorem getNonce_setFullShardKey (k : Nat) (a : Recipient) :
    (s.setFullShardKey k).getNonce a = s.getNonce a := rfl

@[simp] theorem getBalance_addGasUsed (g : Nat) (a : Recipient) (t : Nat) :
    (s.addGasUsed g).getBalance a t = s.getBalance a t := rfl

@[simp] theorem getBalance_addBlockFee (fee : SortedMap Nat Int) (a : Recipient) (t : Nat) :
    (s.addBlockFee fee).getBalance a t = s.getBalance a t := rfl

@[simp] theorem getBalance_appendXShardList (d : CrossShardTransactionDeposit) (a : Recipient)
    (t : Nat) : (s.appendXShardList d).getBalance a t = s.getBalance a t := rfl

/-! ### The outgoing deposits -/

@[simp] theorem xShardList_setBalance (addr : Recipient) (amount : Int) (tokenID : Nat) :
    (s.setBalance addr amount tokenID).xShardList = s.xShardList := rfl

@[simp] theorem xShardList_addBalance (addr : Recipient) (amount : Int) (tokenID : Nat) :
    (s.addBalance addr amount tokenID).xShardList = s.xShardList := rfl

@[simp] theorem xShardList_subBalance (addr : Recipient) (amount : Int) (tokenID : Nat) :
    (s.subBalance addr amount tokenID).xShardList = s.xShardList := rfl

@[simp] theorem xShardList_setNonce (addr : Recipient) (nonce : Nat) :
    (s.setNonce addr nonce).xShardList = s.xShardList := rfl

@[simp] theorem xShardList_addGasUsed (g : Nat) : (s.addGasUsed g).xShardList = s.xShardList := rfl

@[simp] theorem xShardList_addBlockFee (fee : SortedMap Nat Int) :
    (s.addBlockFee fee).xShardList = s.xShardList := rfl

@[simp] theorem xShardList_appendXShardList (d : CrossShardTransactionDeposit) :
    (s.appendXShardList d).xShardList = s.xShardList ++ [d] := rfl

/-! ### The block's time and configuration -/

@[simp] theorem timeStamp_addBalance (addr : Recipient) (amount : Int) (tokenID : Nat) :
    (s.addBalance addr amount tokenID).timeStamp = s.timeStamp := rfl

@[simp] theorem timeStamp_subBalance (addr : Recipient) (amount : Int) (tokenID : Nat) :
    (s.subBalance addr amount tokenID).timeStamp = s.timeStamp := rfl

@[simp] theorem timeStamp_setNonce (addr : Recipient) (nonce : Nat) :
    (s.setNonce addr nonce).timeStamp = s.timeStamp := rfl

@[simp] theorem timeStamp_appendXShardList (d : CrossShardTransactionDeposit) :
    (s.appendXShardList d).timeStamp = s.timeStamp := rfl

@[simp] theorem quarkChainConfig_addBalance (addr : Recipient) (amount : Int) (tokenID : Nat) :
    (s.addBalance addr amount tokenID).quarkChainConfig = s.quarkChainConfig := rfl

@[simp] theorem quarkChainConfig_subBalance (addr : Recipient) (amount : Int) (tokenID : Nat) :
    (s.subBalance addr amount tokenID).quarkChainConfig = s.quarkChainConfig := rfl

@[simp] theorem quarkChainConfig_setNonce (addr : Recipient) (nonce : Nat) :
    (s.setNonce addr nonce).quarkChainConfig = s.quarkChainConfig := rfl

@[simp] theorem quarkChainConfig_appendXShardList (d : CrossShardTransactionDeposit) :
    (s.appendXShardList d).quarkChainConfig = s.quarkChainConfig := rfl

/-! ### Balances of one token as a ledger -/

/-- The balances of token `t`, a ledger over the accounts. -/
def balances (t : Nat) : Recipient → ℤ := fun a => s.getBalance a t

open Ledger in
theorem netChange_addBalance (addr : Recipient) (amount : Int) (tokenID t : Nat) :
    NetChange (s.balances t) ((s.addBalance addr amount tokenID).balances t)
      (if tokenID = t then amount else 0) := by
  have hoff : ∀ b, b ≠ addr →
      (s.addBalance addr amount tokenID).balances t b = s.balances t b := by
    intro b hb
    simp [balances, hb]
  refine (NetChange.of_eq_off addr hoff).congr_amount ?_
  by_cases ht : tokenID = t
  · subst ht
    simp [balances]
  · simp [balances, ht, Ne.symm ht]

open Ledger in
theorem netChange_subBalance (addr : Recipient) (amount : Int) (tokenID t : Nat) :
    NetChange (s.balances t) ((s.subBalance addr amount tokenID).balances t)
      (if tokenID = t then -amount else 0) := by
  have hsub : s.subBalance addr amount tokenID = s.addBalance addr (-amount) tokenID := by
    simp only [subBalance, addBalance, sub_eq_add_neg]
  rw [hsub]
  exact s.netChange_addBalance addr (-amount) tokenID t

@[simp] theorem balances_setNonce (addr : Recipient) (nonce t : Nat) :
    (s.setNonce addr nonce).balances t = s.balances t := by
  funext a
  exact s.getBalance_setNonce addr a nonce t

@[simp] theorem balances_addGasUsed (g t : Nat) : (s.addGasUsed g).balances t = s.balances t := rfl

@[simp] theorem balances_addBlockFee (fee : SortedMap Nat Int) (t : Nat) :
    (s.addBlockFee fee).balances t = s.balances t := rfl

@[simp] theorem balances_appendXShardList (d : CrossShardTransactionDeposit) (t : Nat) :
    (s.appendXShardList d).balances t = s.balances t := rfl

@[simp] theorem balances_subRefund (g t : Nat) : (s.subRefund g).balances t = s.balances t := rfl

@[simp] theorem balances_setFullShardKey (k t : Nat) :
    (s.setFullShardKey k).balances t = s.balances t := rfl

/-- `s'` belongs to the same block as `s`: the same time and configuration,
which is what transaction processing reads of the block. -/
structure SameBlock (s s' : StateDB) : Prop where
  timeStamp : s'.timeStamp = s.timeStamp
  quarkChainConfig : s'.quarkChainConfig = s.quarkChainConfig

namespace SameBlock

theorem refl : SameBlock s s := ⟨rfl, rfl⟩

end SameBlock

@[simp] theorem sameBlock_addBalance (addr : Recipient) (amount : Int) (tokenID : Nat) :
    SameBlock s (s.addBalance addr amount tokenID) := ⟨rfl, rfl⟩

@[simp] theorem sameBlock_subBalance (addr : Recipient) (amount : Int) (tokenID : Nat) :
    SameBlock s (s.subBalance addr amount tokenID) := ⟨rfl, rfl⟩

@[simp] theorem sameBlock_setNonce (addr : Recipient) (nonce : Nat) :
    SameBlock s (s.setNonce addr nonce) := ⟨rfl, rfl⟩

end StateDB

end State
