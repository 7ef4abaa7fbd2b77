import GoQuarkChain.Lib.SortedMap

/-!
# The cluster configuration read by the chain code

Only the fields that the modelled functions read: the shard table (for each
full shard id, the root height of its genesis, absent when the shard has no
genesis), the shard count of each chain, the fee split, the EVM switch-on time
and the token settings.
-/

namespace Config

structure ShardConfig where
  genesisRootHeight : Option Nat
deriving DecidableEq, Repr

structure QuarkChainConfig where
  shards : SortedMap Nat ShardConfig
  chainIdToShardSize : SortedMap Nat Nat
  localFeeRate : ℚ
  enableEvmTimeStamp : Nat
  defaultChainTokenID : Nat
  allowedTokenIDs : List Nat
  networkID : Nat
  xShardGasDDOSFixRootHeight : Nat
  minMiningGasPrice : Nat

/-- `GetGenesisShardIds`: every full shard id of the shard table, in the order of a
walk of the Go map (here, increasing). -/
def QuarkChainConfig.getGenesisShardIds (q : QuarkChainConfig) : List Nat := q.shards.keys

theorem QuarkChainConfig.getGenesisShardIds_nodup (q : QuarkChainConfig) :
    q.getGenesisShardIds.Nodup :=
  q.shards.sorted.nodup

/-- `GetInitializedShardIdsBeforeRootHeight`: shards whose genesis root height
is below `rootHeight`. The source walks a Go map; callers only test membership
and count, so the key order used here is immaterial. -/
def QuarkChainConfig.getInitializedShardIdsBeforeRootHeight (q : QuarkChainConfig)
    (rootHeight : Nat) : List Nat :=
  q.shards.entries.filterMap fun e =>
    match e.2.genesisRootHeight with
    | some h => if h < rootHeight then some e.1 else none
    | none => none

/-- `GetGenesisRootHeight`; the source dereferences the shard's genesis, so a
shard without one has no answer. -/
def QuarkChainConfig.getGenesisRootHeight (q : QuarkChainConfig) (fullShardId : Nat) :
    Option Nat :=
  (q.shards.get? fullShardId).bind (·.genesisRootHeight)

/-- `GetShardSizeByChainId`. -/
def QuarkChainConfig.getShardSizeByChainId (q : QuarkChainConfig) (id : Nat) :
    Except String Nat :=
  match q.chainIdToShardSize.get? id with
  | some size => .ok size
  | none => .error "no such chainID"

/-- `GetFullShardIdByFullShardKey`. -/
def QuarkChainConfig.getFullShardIdByFullShardKey (q : QuarkChainConfig) (fullShardKey : Nat) :
    Except String Nat := do
  let chainID := fullShardKey >>> 16
  let shardSize ← q.getShardSizeByChainId chainID
  let shardID := fullShardKey &&& (shardSize - 1)
  return (chainID <<< 16) ||| shardSize ||| shardID

/-- `IsAllowedTokenID`. -/
def QuarkChainConfig.isAllowedTokenID (q : QuarkChainConfig) (tokenID : Nat) : Bool :=
  tokenID ∈ q.allowedTokenIDs

end Config
