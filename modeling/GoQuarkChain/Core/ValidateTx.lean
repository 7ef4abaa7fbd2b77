import GoQuarkChain.Core.StateProcessor
import GoQuarkChain.Core.MinorBlockChain

/-!
# Checking a transaction against a shard

`validateTx` is what a shard checks before it applies a transaction of a block:
the shard sizes of both ends, the network, that the sender is in this shard,
that a cross-shard destination is initialized and a neighbour, and last the
balance and gas checks of `ValidateTransaction`. The destination checks are made
at the node's own root tip. Signature recovery is a parameter, as in
`applyTransaction`.
-/

namespace Core

open State

def maxFutureTxNonce : Nat := 64

namespace EvmTransaction

variable (tx : EvmTransaction)

def fromFullShardId : Nat := tx.fromChainID <<< 16 ||| tx.fromShardSize ||| tx.fromShardID

def toFullShardId : Nat := tx.toChainID <<< 16 ||| tx.toShardSize ||| tx.toShardID

end EvmTransaction

/-- `SetToShardSize` and `SetFromShardSize` accept powers of two only. -/
def checkShardSize (shardSize : Nat) : Except Failure Nat :=
  if !Account.isP2 shardSize || shardSize = 0 then .error (.error "shardSize is not Usable")
  else .ok shardSize

/-- `ValidateTransaction`, for the sender `sender`. -/
def validateTransaction (state : StateDB) (tx : EvmTransaction) (sender : Recipient) :
    Except Failure Unit := do
  let q := state.quarkChainConfig
  let reqNonce := if sender = 0 then 0 else state.getNonce sender
  if reqNonce > tx.accountNonce then throw (.error "nonce too low")
  let some totalGas :=
      (intrinsicGas tx.payload tx.recipient.isNone (tx.toFullShardId ≠ tx.fromFullShardId)).toOption
    | throw (.error "out of gas")
  if tx.gasLimit < totalGas then throw (.error "intrinsic gas too low")
  if !q.isAllowedTokenID tx.transferTokenID then throw (.error "token is not allowed")
  if !q.isAllowedTokenID tx.gasTokenID then throw (.error "token is not allowed")
  if tx.transferTokenID = tx.gasTokenID then
    if state.getBalance sender tx.transferTokenID < tx.price * tx.gasLimit + tx.amount then
      throw (.error "money is low")
  else
    if state.getBalance sender tx.transferTokenID < tx.amount then throw (.error "money is low")
    if state.getBalance sender tx.gasTokenID < tx.price * tx.gasLimit then
      throw (.error "money is low")
  if state.gasUsed + tx.gasLimit > state.gasLimit then throw (.error "gasLimit is too low")

/-- `validateTx`. The miner and the pool give `fromAddress` (and a gas override);
a block's transactions are checked without, with the block's cross-shard gas
limit. It returns the transaction with the shard sizes filled in. -/
def validateTx (m : MinorBlockChain) (sender : EvmTransaction → Option Recipient)
    (tx : EvmTransaction) (evmState : StateDB) (fromAddress : Option Address) (gas : Option Nat)
    (xShardGasLimit : Nat) : Except Failure EvmTransaction := do
  let q := m.quarkChainConfig
  let tx := match fromAddress with
    | some a => { tx with accountNonce := evmState.getNonce a.recipient,
                          gasLimit := gas.getD tx.gasLimit }
    | none => tx
  let some toShardSize := (q.getShardSizeByChainId tx.toChainID).toOption
    | throw (.error "no such chainID")
  let tx := { tx with toShardSize := ← checkShardSize toShardSize }
  let some fromShardSize := (q.getShardSizeByChainId tx.fromChainID).toOption
    | throw (.error "no such chainID")
  let tx := { tx with fromShardSize := ← checkShardSize fromShardSize }
  if tx.networkId ≠ q.networkID then throw (.error "network id not match")
  if !m.branch.isInBranch tx.fromFullShardId then throw (.error "branch not match")
  let toBranch : Account.Branch := ⟨tx.toFullShardId⟩
  if tx.isCrossShard then
    if toBranch.getFullShardID ∉ q.getInitializedShardIdsBeforeRootHeight m.rootTip.number then
      throw (.error "shard is not initialized yet")
  if tx.isCrossShard && !m.isNeighbor toBranch m.rootTip.number then
    throw (.error "is not a neighbor")
  if tx.isCrossShard && tx.gasLimit > xShardGasLimit then
    throw (.error "xshard evm tx exceeds xshard gasLimit")
  if evmState.timeStamp < q.enableEvmTimeStamp then
    if tx.recipient.isNone || tx.payload.length ≠ 0 then
      throw (.error "smart contract tx is not allowed before evm is enabled")
  let some fromRecipient := (fromAddress.map (·.recipient)).orElse fun _ => sender tx
    | throw (.error "invalid sender")
  let reqNonce := evmState.getNonce fromRecipient
  if reqNonce < tx.accountNonce ∧ tx.accountNonce < reqNonce + maxFutureTxNonce then return tx
  validateTransaction { evmState with quarkChainConfig := q } tx fromRecipient
  return tx

end Core
