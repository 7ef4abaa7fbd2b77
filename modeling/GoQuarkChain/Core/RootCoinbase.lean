import GoQuarkChain.Core.RootBlockValidator
import GoQuarkChain.Core.XShardTxCursor

/-!
# Who is paid a root block's coinbase

No shard is told that a root block's coinbase is its own. The cursor of every
shard hands out the coinbase deposit of each root block it goes through, from
the shard's genesis root height on, and `coinbaseDeposit` fills in the root
block's genesis-token coinbase when the coinbase's full shard key lies in the
shard's branch (`IsInBranch`), and `0` otherwise.

In a shard table that `initAndValidate` accepts, at most one branch holds a
key: the shard `GetFullShardIdByFullShardKey` names. So a root block's reward
is minted at most once across the cluster, and not at all when the key names
no shard that has started by the block's height. `ValidateBlock` checks the
coinbase amount, never the coinbase's key.
-/

namespace Config

open Account

/-- The shard table `initAndValidate` accepts, with the shard sizes powers of
two below `2 ^ 16` as `CreatBranch` requires: each chain has one shard size,
and every full shard id packs its chain id, that size and a shard id below it. -/
structure QuarkChainConfig.WellFormed (q : QuarkChainConfig) : Prop where
  shardSize : ∀ c size, q.chainIdToShardSize.get? c = some size → ∃ k < 16, size = 2 ^ k
  fullShardId : ∀ id ∈ q.shards.keys, ∃ c size i,
    q.chainIdToShardSize.get? c = some size ∧ i < size ∧ id = getFullShardId c size i

theorem QuarkChainConfig.getFullShardIdByFullShardKey_eq_ok {q : QuarkChainConfig} {key id : Nat} :
    q.getFullShardIdByFullShardKey key = .ok id ↔
      ∃ size, q.chainIdToShardSize.get? (key >>> 16) = some size ∧
        id = getFullShardId (key >>> 16) size (key &&& (size - 1)) := by
  simp only [getFullShardIdByFullShardKey, getShardSizeByChainId]
  cases q.chainIdToShardSize.get? (key >>> 16) with
  | none => simp
  | some size =>
    simp only [Option.some.injEq, exists_eq_left']
    exact ⟨fun h => (Except.ok.inj h).symm, fun h => h ▸ rfl⟩

/-- In a well-formed table, a shard's branch holds a key exactly when the key
names the shard. -/
theorem QuarkChainConfig.WellFormed.isInBranch_iff {q : QuarkChainConfig} (hq : q.WellFormed)
    {id : Nat} (hid : id ∈ q.shards.keys) (key : Nat) :
    (Branch.mk id).isInBranch key = true ↔ q.getFullShardIdByFullShardKey key = .ok id := by
  obtain ⟨c, size, i, hsize, hi, rfl⟩ := hq.fullShardId id hid
  obtain ⟨k, hk, rfl⟩ := hq.shardSize c _ hsize
  rw [Branch.isInBranch_getFullShardId hk hi, getFullShardIdByFullShardKey_eq_ok]
  constructor
  · rintro ⟨rfl, rfl⟩
    refine ⟨2 ^ k, hsize, ?_⟩
    rw [Nat.and_two_pow_sub_one_eq_mod]
  · rintro ⟨size', hsize', heq⟩
    obtain ⟨k', hk', rfl⟩ := hq.shardSize _ _ hsize'
    rw [Nat.and_two_pow_sub_one_eq_mod] at heq
    have hlow : key % 2 ^ k' < 2 ^ k' := Nat.mod_lt _ (Nat.two_pow_pos k')
    -- both sides of `heq` are packed ids: read each part back
    have hchain := congrArg (fun v => (Branch.mk v).getChainID) heq
    have hsz := congrArg (fun v => (Branch.mk v).getShardSize) heq
    have hshard := congrArg (fun v => (Branch.mk v).getShardID) heq
    simp only [Branch.getChainID_getFullShardId hk hi, Branch.getChainID_getFullShardId hk' hlow,
      Branch.getShardSize_getFullShardId hk hi, Branch.getShardSize_getFullShardId hk' hlow,
      Branch.getShardID_getFullShardId hk hi, Branch.getShardID_getFullShardId hk' hlow] at hchain hsz hshard
    have hkk : k = k' := Nat.pow_right_injective (le_refl 2) hsz
    subst hkk
    exact ⟨hchain.symm, hshard.symm⟩

end Config

namespace Core

open Config Account

/-- The shards that pay a root block's coinbase to themselves: those whose
genesis root height is at most the block's height, so that their cursor goes
through the block, and whose branch holds the coinbase's full shard key. -/
def coinbaseShards (q : QuarkChainConfig) (height key : Nat) : List Nat :=
  q.shards.keys.filter fun id =>
    (q.getGenesisRootHeight id).any (· ≤ height) && (Branch.mk id).isInBranch key

section CoinbaseShards

variable {q : QuarkChainConfig} {height key : Nat}

theorem mem_keys_of_getGenesisRootHeight {id g : Nat} (h : q.getGenesisRootHeight id = some g) :
    id ∈ q.shards.keys := by
  obtain ⟨cfg, hcfg, -⟩ := Option.bind_eq_some_iff.mp h
  rw [SortedMap.get?_eq_some_iff] at hcfg
  exact List.mem_map_of_mem hcfg

/-- In a well-formed table the shards paid a root block's coinbase are the one
the key names, if it has started by the block's height. -/
theorem mem_coinbaseShards (hq : q.WellFormed) (id : Nat) :
    id ∈ coinbaseShards q height key ↔
      q.getFullShardIdByFullShardKey key = .ok id ∧ (q.getGenesisRootHeight id).any (· ≤ height) := by
  rw [coinbaseShards, List.mem_filter, Bool.and_eq_true]
  constructor
  · rintro ⟨hid, hstarted, hin⟩
    exact ⟨(hq.isInBranch_iff hid key).mp hin, hstarted⟩
  · rintro ⟨hkey, hstarted⟩
    cases hg : q.getGenesisRootHeight id with
    | none =>
      rw [hg] at hstarted
      cases hstarted
    | some g =>
      have hid := mem_keys_of_getGenesisRootHeight hg
      exact ⟨hid, hg ▸ hstarted, (hq.isInBranch_iff hid key).mpr hkey⟩

/-- At most one shard is paid a root block's coinbase. -/
theorem length_coinbaseShards_le_one (hq : q.WellFormed) :
    (coinbaseShards q height key).length ≤ 1 := by
  have hnodup : (coinbaseShards q height key).Nodup :=
    (q.shards.sorted.nodup).filter _
  cases hkey : q.getFullShardIdByFullShardKey key with
  | error e =>
    have hnil : coinbaseShards q height key = [] := by
      rw [List.eq_nil_iff_forall_not_mem]
      intro id hid
      rw [mem_coinbaseShards hq, hkey] at hid
      cases hid.1
    rw [hnil]
    exact Nat.zero_le _
  | ok id =>
    have hsub : coinbaseShards q height key ⊆ [id] := by
      intro id' hid'
      rw [mem_coinbaseShards hq, hkey] at hid'
      rw [List.mem_singleton]
      exact (Except.ok.inj hid'.1).symm
    exact (hnodup.subperm hsub).length_le

end CoinbaseShards

/-- What a shard's cursor deposits for a root block's coinbase. -/
theorem MinorBlockChain.coinbaseDeposit_value (m : MinorBlockChain) (rBlock : RootBlock) :
    (m.coinbaseDeposit rBlock).value =
      if m.branch.isInBranch rBlock.header.coinbase.fullShardKey then
        (rBlock.header.coinbaseAmount.getTokenBalance m.quarkChainConfig.defaultChainTokenID).toNat
      else 0 := by
  unfold MinorBlockChain.coinbaseDeposit
  split <;> rfl

/-- A shard that has started by a height is among those paid a root block's
coinbase at that height exactly when its branch holds the key. -/
theorem MinorBlockChain.mem_coinbaseShards_iff (m : MinorBlockChain) {height key : Nat}
    (hstarted : m.genesisRootHeight ≤ height) :
    m.branch.value ∈ coinbaseShards m.quarkChainConfig height key ↔
      m.branch.isInBranch key = true := by
  have hid := mem_keys_of_getGenesisRootHeight m.genesisRootHeight_eq
  rw [coinbaseShards, List.mem_filter, Bool.and_eq_true, m.genesisRootHeight_eq]
  simp only [Option.any_some, decide_eq_true_eq]
  exact ⟨fun h => h.2.2, fun h => ⟨hid, hstarted, h⟩⟩

/-- In a well-formed cluster a root block's coinbase is paid by at most one
shard: the one its coinbase's full shard key names, when that shard has
started by the block's height. Every shard that goes through the block
deposits the block's genesis-token coinbase if it is that shard, and `0`
otherwise. -/
theorem rootCoinbase_minted_at_most_once {q : QuarkChainConfig} (hq : q.WellFormed)
    (rBlock : RootBlock) :
    (coinbaseShards q rBlock.header.number rBlock.header.coinbase.fullShardKey).length ≤ 1 ∧
      (∀ id, id ∈ coinbaseShards q rBlock.header.number rBlock.header.coinbase.fullShardKey ↔
        q.getFullShardIdByFullShardKey rBlock.header.coinbase.fullShardKey = .ok id ∧
          (q.getGenesisRootHeight id).any (· ≤ rBlock.header.number)) ∧
      ∀ m : MinorBlockChain, m.quarkChainConfig = q → m.genesisRootHeight ≤ rBlock.header.number →
        (m.coinbaseDeposit rBlock).value =
          if m.branch.value ∈ coinbaseShards q rBlock.header.number
              rBlock.header.coinbase.fullShardKey then
            (rBlock.header.coinbaseAmount.getTokenBalance q.defaultChainTokenID).toNat
          else 0 := by
  refine ⟨length_coinbaseShards_le_one hq, mem_coinbaseShards hq, ?_⟩
  rintro m rfl hstarted
  rw [MinorBlockChain.coinbaseDeposit_value]
  by_cases hin : m.branch.isInBranch rBlock.header.coinbase.fullShardKey = true
  · rw [if_pos hin, if_pos ((m.mem_coinbaseShards_iff hstarted).mpr hin)]
  · rw [if_neg hin, if_neg (mt (m.mem_coinbaseShards_iff hstarted).mp hin)]

section StrayCoinbaseExample

/-- The one-shard cluster is well formed: shard `1` is chain `0`, of size `1`,
shard `0`. -/
theorem oneShardConfig_wellFormed : oneShardConfig.WellFormed where
  shardSize := by
    intro c size h
    simp only [oneShardConfig, SortedMap.get?_insert, SortedMap.get?_empty] at h
    split at h
    · exact ⟨0, by decide, (Option.some.inj h).symm⟩
    · cases h
  fullShardId := by
    intro id hid
    have hkeys : oneShardConfig.shards.keys = [1] := rfl
    rw [hkeys, List.mem_singleton] at hid
    subst hid
    exact ⟨0, 1, 0, rfl, by decide, by decide⟩

/-- `shardConfirmingRoot` pays its coinbase to shard `1`, the cluster's only shard. -/
theorem shardConfirmingRoot_coinbase_minted_at_most_once :
    (coinbaseShards oneShardConfig shardConfirmingRoot.header.number
        shardConfirmingRoot.header.coinbase.fullShardKey).length ≤ 1 ∧
      (∀ id, id ∈ coinbaseShards oneShardConfig shardConfirmingRoot.header.number
          shardConfirmingRoot.header.coinbase.fullShardKey ↔
        oneShardConfig.getFullShardIdByFullShardKey
            shardConfirmingRoot.header.coinbase.fullShardKey = .ok id ∧
          (oneShardConfig.getGenesisRootHeight id).any (· ≤ shardConfirmingRoot.header.number)) ∧
      ∀ m : MinorBlockChain, m.quarkChainConfig = oneShardConfig →
        m.genesisRootHeight ≤ shardConfirmingRoot.header.number →
        (m.coinbaseDeposit shardConfirmingRoot).value =
          if m.branch.value ∈ coinbaseShards oneShardConfig shardConfirmingRoot.header.number
              shardConfirmingRoot.header.coinbase.fullShardKey then
            (shardConfirmingRoot.header.coinbaseAmount.getTokenBalance
              oneShardConfig.defaultChainTokenID).toNat
          else 0 :=
  rootCoinbase_minted_at_most_once oneShardConfig_wellFormed shardConfirmingRoot

/-- A root block at height `1` on the genesis of `sampleRootStore`, whose
coinbase of 120 QKC in the genesis token is addressed to chain `5`, a chain the
cluster does not have. -/
def strayCoinbaseRoot : RootBlock :=
  ⟨{ (plainRoot 11 1 10 2).header with
      coinbase := ⟨0, 5 <<< 16⟩, coinbaseAmount := ⟨SortedMap.empty.insert 0 (120 * 10 ^ 18)⟩ }, []⟩

/-- `ValidateBlock` accepts `strayCoinbaseRoot` in a well-formed cluster, and
no shard is paid its coinbase: the only shard's cursor deposits `0` for it. -/
theorem strayCoinbaseRoot_minted_nowhere :
    oneShardConfig.WellFormed ∧
      (sampleRootStore.validateBlock strayCoinbaseRoot false).isOk = true ∧
      strayCoinbaseRoot.header.coinbaseAmount.getTokenBalance 0 = 120 * 10 ^ 18 ∧
      coinbaseShards oneShardConfig 1 strayCoinbaseRoot.header.coinbase.fullShardKey = [] ∧
      ∀ m : MinorBlockChain, m.quarkChainConfig = oneShardConfig →
        (m.coinbaseDeposit strayCoinbaseRoot).value = 0 := by
  refine ⟨oneShardConfig_wellFormed, rfl, rfl, by decide, ?_⟩
  intro m hm
  -- the cluster's only shard is shard `1`, whose branch does not hold chain `5`
  have hid := mem_keys_of_getGenesisRootHeight m.genesisRootHeight_eq
  have hkeys : m.quarkChainConfig.shards.keys = [1] := by rw [hm]; rfl
  rw [hkeys, List.mem_singleton] at hid
  have hbranch : m.branch = ⟨1⟩ := by rw [← hid]
  rw [MinorBlockChain.coinbaseDeposit_value, hbranch, if_neg (by decide)]

end StrayCoinbaseExample

end Core
