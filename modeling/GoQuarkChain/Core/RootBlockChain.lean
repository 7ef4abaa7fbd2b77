import GoQuarkChain.Core.BlockProcessing

/-!
# Block rewards and their decay

The reward of a block decays by the cluster's `BlockRewardDecayFactor` once per
epoch of `EpochInterval` blocks, on the root chain
(`RootBlockChain.getCoinbaseAmount`) as on every shard
(`MinorBlockChain.getCoinbaseAmount`, modelled as `getCoinbaseAmount`). Both
raise the factor's numerator and denominator to the epoch with `powerBigInt`.
That helper squares where it should multiply: it is the power exactly when the
exponent is at most `2` or the base at most `1`, so both rewards follow the
intended decay in the first three epochs and decay at `d ^ 2 ^ (e - 1)` from
then on. The per-epoch caches of the source only memoize the computation.
-/

namespace Core

/-- The root chain's `CoinbaseAmount` and `EpochInterval`. -/
structure RootConfig where
  coinbaseAmount : Nat
  epochInterval : Nat
  epochInterval_pos : 0 < epochInterval

/-- `RootBlockChain.getCoinbaseAmount`: the reward of a root block at `height`,
in the default token, before the minor blocks' fees are added. -/
def RootBlockChain.getCoinbaseAmount (root : RootConfig) (blockRewardDecayFactor : ℚ)
    (height : Nat) : Nat :=
  let epoch := height / root.epochInterval
  let numerator := powerBigInt blockRewardDecayFactor.num.toNat epoch
  let denominator := powerBigInt blockRewardDecayFactor.den epoch
  root.coinbaseAmount * numerator / denominator

section Decay

variable (d : ℚ) (height : Nat)

/-- From epoch `e + 1` on, the root reward is decayed by `d ^ 2 ^ e`. -/
theorem RootBlockChain.getCoinbaseAmount_of_epoch_succ (root : RootConfig) {e : Nat}
    (he : height / root.epochInterval = e + 1) :
    RootBlockChain.getCoinbaseAmount root d height =
      root.coinbaseAmount * d.num.toNat ^ 2 ^ e / d.den ^ 2 ^ e := by
  simp only [RootBlockChain.getCoinbaseAmount, he, powerBigInt_succ]

/-- From epoch `e + 1` on, a shard's reward is decayed by `d ^ 2 ^ e`. -/
theorem getCoinbaseAmount_of_epoch_succ (cfg : CoinbaseConfig) (q : Config.QuarkChainConfig)
    {e : Nat} (he : height / cfg.epochInterval = e + 1) :
    getCoinbaseAmount cfg q height =
      SortedMap.empty.insert q.defaultChainTokenID
        ((cfg.coinbaseAmount * q.localFeeRate.num.toNat * cfg.blockRewardDecayFactor.num.toNat ^ 2 ^ e /
          q.localFeeRate.den / cfg.blockRewardDecayFactor.den ^ 2 ^ e : Nat) : Int) := by
  simp only [getCoinbaseAmount, he, powerBigInt_succ]

end Decay

section DefaultRewards

/-- The default `BlockRewardDecayFactor`. -/
def defaultBlockRewardDecayFactor : ℚ := 1 / 2

theorem defaultBlockRewardDecayFactor_num : defaultBlockRewardDecayFactor.num.toNat = 1 := by
  simp [defaultBlockRewardDecayFactor, Int.sign]

theorem defaultBlockRewardDecayFactor_den : defaultBlockRewardDecayFactor.den = 2 := by
  simp [defaultBlockRewardDecayFactor]

/-- The default root chain: 120 QKC a block, epochs of 2100000 blocks. -/
def defaultRootConfig : RootConfig := ⟨120 * 10 ^ 18, 210000 * 10, by decide⟩

/-- The default shard: 5 QKC a block, epochs of 12600000 blocks. -/
def defaultShardCoinbaseConfig : CoinbaseConfig :=
  ⟨5 * 10 ^ 18, 210000 * 60, by decide, defaultBlockRewardDecayFactor⟩

/-- With the default settings, at the start of the fourth epoch (epoch `3`), the
root reward is `120 / 2 ^ 4` QKC and a shard's is `5 / 2 ^ 4` QKC, not the
`120 / 2 ^ 3` and `5 / 2 ^ 3` of three halvings. -/
theorem getCoinbaseAmount_epoch_three_decays_four_times :
    RootBlockChain.getCoinbaseAmount defaultRootConfig defaultBlockRewardDecayFactor
        (3 * defaultRootConfig.epochInterval) = 120 * 10 ^ 18 / 2 ^ 4 ∧
      120 * 10 ^ 18 / 2 ^ 4 ≠ defaultRootConfig.coinbaseAmount *
        defaultBlockRewardDecayFactor.num.toNat ^ 3 / defaultBlockRewardDecayFactor.den ^ 3 ∧
      (getCoinbaseAmount defaultShardCoinbaseConfig oneShardConfig
        (3 * defaultShardCoinbaseConfig.epochInterval)).get? 0 = some (5 * 10 ^ 18 / 2 ^ 4) ∧
      5 * 10 ^ 18 / 2 ^ 4 ≠ defaultShardCoinbaseConfig.coinbaseAmount *
        oneShardConfig.localFeeRate.num.toNat * defaultBlockRewardDecayFactor.num.toNat ^ 3 /
        oneShardConfig.localFeeRate.den / defaultBlockRewardDecayFactor.den ^ 3 := by
  have hroot := RootBlockChain.getCoinbaseAmount_of_epoch_succ defaultBlockRewardDecayFactor
    (3 * defaultRootConfig.epochInterval) defaultRootConfig (e := 2) (by decide)
  have hshard := getCoinbaseAmount_of_epoch_succ (3 * defaultShardCoinbaseConfig.epochInterval)
    defaultShardCoinbaseConfig oneShardConfig (e := 2) (by decide)
  refine ⟨?_, ?_, ?_, ?_⟩
  · rw [hroot, defaultBlockRewardDecayFactor_num, defaultBlockRewardDecayFactor_den]
    decide
  · rw [defaultBlockRewardDecayFactor_num, defaultBlockRewardDecayFactor_den]
    decide
  · rw [hshard]
    simp [defaultShardCoinbaseConfig, defaultBlockRewardDecayFactor_num,
      defaultBlockRewardDecayFactor_den, oneShardConfig]
  · simp [defaultShardCoinbaseConfig, defaultBlockRewardDecayFactor_num,
      defaultBlockRewardDecayFactor_den, oneShardConfig]

end DefaultRewards

end Core
