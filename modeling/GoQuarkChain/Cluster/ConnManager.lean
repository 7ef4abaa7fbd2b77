import GoQuarkChain.Core.ValidateTx
import GoQuarkChain.Core.XShardTxCursor

/-!
# Sending a block's cross-shard deposits

After a slave adds a minor block, it sends the block's outgoing deposits to the
shards they are addressed to. The destinations are the shards initialized
before the block's previous root block, each of which gets a list (empty when
nothing is addressed to it); a neighbour gets its list, and a deposit for a
shard outside that set is a broken assertion. Go walks these maps in random
order; here they are sorted by full shard id.
-/

namespace Cluster

open State Core

/-- `rpc.AddXshardTxListRequest`. -/
structure AddXshardTxListRequest where
  branch : Nat
  minorBlockHash : Hash
  txList : List CrossShardTransactionDeposit
deriving DecidableEq, Repr

/-- `getBranchToAddXshardTxListRequest`: the deposits of block `blockHash` grouped
by destination, over the shards initialized before root height `height`. -/
def getBranchToAddXshardTxListRequest (q : Config.QuarkChainConfig) (blockHash : Hash)
    (xshardTxList : List CrossShardTransactionDeposit) (height : Nat) :
    Except Failure (SortedMap Nat AddXshardTxListRequest) := do
  let xshardMap := (q.getInitializedShardIdsBeforeRootHeight height).foldl
    (fun acc id => acc.insert id []) (SortedMap.empty : SortedMap Nat _)
  let xshardMap ← xshardTxList.foldlM
    (fun acc sTx => do
      let some fullShardID := (q.getFullShardIdByFullShardKey sTx.toAddr.fullShardKey).toOption
        | throw (.error "no such chainID")
      let some txs := acc.get? fullShardID
        | throw (.panic "xshard's to's fullShardID should in map")
      pure (acc.insert fullShardID (txs ++ [sTx])))
    xshardMap
  pure (xshardMap.mapValues fun branch txLst => ⟨branch, blockHash, txLst⟩)

/-- `BroadcastXshardTxList`: the requests sent, one for each neighbour. -/
def broadcastXshardTxList (q : Config.QuarkChainConfig) (blockBranch : Account.Branch)
    (blockHash : Hash) (xshardTxList : List CrossShardTransactionDeposit) (height : Nat) :
    Except Failure (List AddXshardTxListRequest) := do
  let shardSize := (q.getInitializedShardIdsBeforeRootHeight height).length
  let requests ← getBranchToAddXshardTxListRequest q blockHash xshardTxList height
  requests.entries.filterMapM fun (branch, request) =>
    if branch = blockBranch.value || !Account.isNeighbor blockBranch ⟨branch⟩ shardSize then
      if request.txList.length ≠ 0 then
        throw (.error "there shouldn't be xshard list for non-neighbor shard")
      else pure none
    else pure (some request)

section LateDestinationExample

/-- Shard `2` of `twoShardConfig` (created at root height `0`) after its genesis. -/
def earlyShardChain : Except Failure MinorBlockChain :=
  initGenesisState ⟨2⟩ twoShardConfig 0 rfl 8 (plainRoot 10 0 emptyHash 1)
    ⟨⟨500, 0, emptyHash, ⟨2⟩, 10⟩, ⟨0, 0, 0⟩⟩

def secondRoot : RootBlock := plainRoot 12 2 11 3

/-- A transfer from shard `2` to shard `3`, created at root height `1`. -/
def lateDestinationTx : EvmTransaction :=
  { accountNonce := 0, price := 0, gasLimit := 30000, recipient := some 5, amount := 0,
    payload := [], networkId := 3, fromFullShardKey := 0, toFullShardKey := 1, gasTokenID := 0,
    transferTokenID := 0, fromShardSize := 2, toShardSize := 2, hash := 9 }

def earlyShardState : StateDB := { sampleState with quarkChainConfig := twoShardConfig }

/-- A block of shard `2` whose previous root block has height `1` may send to
shard `3`: a node at root tip `12` (height `2`) accepts the transaction, a node at
root tip `11` (height `1`) rejects it, and sending the resulting deposit with
the previous root height `1` breaks the broadcaster's assertion. -/
theorem validateTx_root_tip_dependent :
    ∃ c, earlyShardChain = .ok c ∧
      (ExceptState.exec (addRootBlock lateGenesisRoot) c).1 = .ok true ∧
      (ExceptState.exec (addRootBlock secondRoot)
        (ExceptState.exec (addRootBlock lateGenesisRoot) c).2).1 = .ok true ∧
      validateTx (ExceptState.exec (addRootBlock secondRoot)
          (ExceptState.exec (addRootBlock lateGenesisRoot) c).2).2 (fun _ => some 1)
        lateDestinationTx earlyShardState none none 30000 = .ok lateDestinationTx ∧
      validateTx (ExceptState.exec (addRootBlock lateGenesisRoot) c).2 (fun _ => some 1)
        lateDestinationTx earlyShardState none none 30000 =
        .error (.error "shard is not initialized yet") ∧
      getBranchToAddXshardTxListRequest twoShardConfig 501
        (applyTransaction transferInterpreter (fun _ => some 1) 0 30000 earlyShardState
          lateDestinationTx 0).state.xShardList 1 =
        .error (.panic "xshard's to's fullShardID should in map") := by
  refine ⟨_, rfl, ?_, ?_, ?_, ?_, ?_⟩
  · rfl
  · rfl
  · rfl
  · rfl
  · rfl

end LateDestinationExample

end Cluster
