import GoQuarkChain.Core.StateProcessor

/-!
# Sending a transaction to another shard

`TransitionDb` of a cross-shard transaction buys all its gas, draws the
intrinsic gas (`IntrinsicGas`, with `GtxxShardCost` added), bumps the nonce and
hands over to `AddCrossShardTxDeposit`. Past the PoSW check, that moves the
value out, appends the deposit for the target shard with the gas it reserves
there, refunds what is neither used here nor reserved, and charges the local
fee on the intrinsic gas less `GtxxShardCost`, which the target shard's miner
is paid.

The accounting is exact: the sender pays the value and the intrinsic plus the
reserved gas, the coinbase gets its share of the local fee, and every token's
total drops by what the deposit carries away and the part of the fee that
leaves the shard (`applyMessage_crossShard_conserves`). `IntrinsicGas` adds
`GtxxShardCost` to a `uint64` without a check, and `localGasUsed -=
GtxxShardCost` subtracts it back in `uint64`; `applyMessage_crossShard_accounting`
keeps the term a wrap of the first sum would add. It takes a payload of about
`2 ^ 62` bytes, and below `2 ^ 48` bytes, more than Go allocates, the sum cannot
wrap (`gtxxShardCost_le_intrinsicGas`).
-/

namespace Core

open State Ledger ExceptState

/-! ### Token flows

The EVM only moves value between accounts; the transition around it creates and
destroys tokens. -/

/-- The part of a fee that `chargeFee` does not pay the coinbase: it leaves the
shard's supply (and is paid out again through the root chain). -/
def feeBurn (q : Config.QuarkChainConfig) (fee : ℤ) : ℤ :=
  fee - fee * q.localFeeRate.num / q.localFeeRate.den

/-- What a deposit takes out of its shard in token `t`: its value, and in gas
the gas reserved for the target shard and the start gas the target charges. -/
def depositOutflow (t : Nat) (d : CrossShardTransactionDeposit) : ℤ :=
  (if d.transferTokenID = t then (d.value : ℤ) else 0) +
    if d.gasTokenID = t then ((d.gasRemained + gtxxShardCost) * d.gasPrice : ℤ) else 0

theorem netChange_chargeFee (t gasUsed : Nat) (st : StateTransition) :
    NetChange (st.state.balances t) ((exec (chargeFee gasUsed) st).2.state.balances t)
      (if st.msg.gasTokenID = t then
        (gasUsed * st.gasPrice : ℤ) * st.state.quarkChainConfig.localFeeRate.num /
          st.state.quarkChainConfig.localFeeRate.den
      else 0) := by
  rw [exec_chargeFee]
  exact st.state.netChange_addBalance _ _ _ t

/-- The gas `AddCrossShardTxDeposit` reserves for the target shard: what is left
after the intrinsic gas, for a creation or once the EVM is on; nothing for a
transfer before. -/
def crossShardReserved (msg : Message) (s : StateDB) (intrinsicGas : Nat) : Nat :=
  match msg.toAddr with
  | none => msg.gasLimit - intrinsicGas
  | some _ =>
    if s.timeStamp ≥ s.quarkChainConfig.enableEvmTimeStamp then msg.gasLimit - intrinsicGas
    else 0

/-- The recipient the deposit names: the target account, or for a creation the
address `CreateAddress` derives from the sender and the nonce it has then. -/
def crossShardRecipient (vm : Interpreter) (msg : Message) (nonce : Nat) : Recipient :=
  match msg.toAddr with
  | none => vm.createAddress msg.fromAddr msg.fromFullShardKey nonce
  | some recipient => recipient

/-- The gas `AddCrossShardTxDeposit` charges the fee on: `localGasUsed -=
GtxxShardCost` in `uint64`. -/
def chargedCrossShardGas (localGasUsed : Nat) : Nat :=
  (localGasUsed + 2 ^ 64 - gtxxShardCost) % 2 ^ 64

theorem crossShardReserved_le (msg : Message) (s : StateDB) (g : Nat) :
    crossShardReserved msg s g ≤ msg.gasLimit - g := by
  unfold crossShardReserved
  split
  · exact le_refl _
  · split <;> omega

/-! ### The `uint64` subtraction of `GtxxShardCost` -/

section Charged

variable {g : Nat}

/-- Without a wrap before, the charged gas is the plain difference. -/
theorem chargedCrossShardGas_of_le (hle : gtxxShardCost ≤ g) (hlt : g < 2 ^ 64) :
    chargedCrossShardGas g = g - gtxxShardCost := by
  unfold chargedCrossShardGas
  rw [show g + 2 ^ 64 - gtxxShardCost = g - gtxxShardCost + 2 ^ 64 by omega,
    Nat.add_mod_right, Nat.mod_eq_of_lt (by omega)]

/-- Below `GtxxShardCost` the subtraction wraps. -/
theorem chargedCrossShardGas_of_lt (hlt : g < gtxxShardCost) :
    chargedCrossShardGas g = g + 2 ^ 64 - gtxxShardCost := by
  unfold chargedCrossShardGas
  exact Nat.mod_eq_of_lt (by unfold gtxxShardCost at hlt ⊢; omega)

/-- Adding `GtxxShardCost` back gives the intrinsic gas, and `2 ^ 64` more
after a wrap. -/
theorem chargedCrossShardGas_add (hlt : g < 2 ^ 64) :
    chargedCrossShardGas g + gtxxShardCost = g + if g < gtxxShardCost then 2 ^ 64 else 0 := by
  by_cases hg : g < gtxxShardCost
  · have hcost : gtxxShardCost ≤ 2 ^ 64 := by decide
    rw [chargedCrossShardGas_of_lt hg, if_pos hg]
    omega
  · rw [chargedCrossShardGas_of_le (by omega) hlt, if_neg hg]
    omega

end Charged

/-- `IntrinsicGas` of a cross-shard message is a `uint64`. -/
theorem intrinsicGas_crossShard_lt {data : List UInt8} {contractCreation : Bool} {g : Nat}
    (h : intrinsicGas data contractCreation true = .ok g) : g < 2 ^ 64 := by
  simp only [intrinsicGas, bind, Except.bind, pure, Except.pure, throw, throwThe,
    MonadExceptOf.throw, if_true] at h
  -- every branch that does not throw ends in the same `% 2 ^ 64`
  repeat' split at h
  all_goals first
    | rw [← Except.ok.inj h]
      exact Nat.mod_lt _ (Nat.two_pow_pos 64)
    | cases h

/-- A payload below `2 ^ 48` bytes keeps the intrinsic gas of a cross-shard message
from wrapping: it is at least `GtxxShardCost`. -/
theorem gtxxShardCost_le_intrinsicGas {data : List UInt8} {contractCreation : Bool} {g : Nat}
    (hdata : data.length < 2 ^ 48) (h : intrinsicGas data contractCreation true = .ok g) :
    gtxxShardCost ≤ g := by
  simp only [intrinsicGas, bind, Except.bind, pure, Except.pure, throw, throwThe,
    MonadExceptOf.throw, if_true] at h
  have hnz := List.length_filter_le (· != (0 : UInt8)) data
  -- every branch that does not throw adds `GtxxShardCost` to less than `2 ^ 64 - 9000`
  repeat' split at h
  all_goals first
    | obtain rfl := Except.ok.inj h
      simp only [gtxxShardCost, txGasContractCreation, txGas, txDataNonZeroGas, txDataZeroGas]
      rw [Nat.mod_eq_of_lt (by omega)]
      omega
    | cases h

/-! ### `AddCrossShardTxDeposit`, step by step -/

section Forward

variable (vm : Interpreter) (g : Nat) (st : StateTransition)

theorem exec_reserveCrossShardDeposit_of_locked
    (hlock : transferFailureByPoSWBalanceCheck st = true) :
    exec (reserveCrossShardDeposit vm g) st = (.ok (true, 0), { st with gas := 0 }) := by
  simp only [reserveCrossShardDeposit, exec_get_bind, hlock, if_true]
  rfl

theorem exec_reserveCrossShardDeposit_of_unlocked
    (hlock : transferFailureByPoSWBalanceCheck st = false) :
    exec (reserveCrossShardDeposit vm g) st =
      (.ok (false, crossShardReserved st.msg st.state g),
        { st with
          state := (st.state.subBalance st.msg.fromAddr st.value st.msg.transferTokenID).appendXShardList
            (crossShardDeposit st.msg (crossShardRecipient vm st.msg (st.state.getNonce st.msg.fromAddr))
              (crossShardReserved st.msg st.state g) st.msg.toAddr.isNone) }) := by
  simp only [reserveCrossShardDeposit, exec_get_bind, hlock, Bool.false_eq_true, if_false]
  cases hto : st.msg.toAddr with
  | none =>
    simp only [hto, crossShardReserved, crossShardRecipient, StateDB.getNonce_subBalance]
    rfl
  | some recipient =>
    simp only [hto, crossShardReserved, crossShardRecipient]
    rfl

theorem exec_addCrossShardTxDeposit_of_locked
    (hbal : ¬ st.state.getBalance st.msg.fromAddr st.msg.transferTokenID < st.value)
    (hlock : transferFailureByPoSWBalanceCheck st = true) :
    exec (addCrossShardTxDeposit vm g) st =
      let st₁ : StateTransition := { st with
        gas := 0,
        state := st.state.addBalance st.msg.fromAddr
          (((st.msg.gasLimit - st.initialGas : Nat) : Int) * st.gasPrice) st.msg.gasTokenID }
      let st₂ := (exec (chargeFee st.initialGas) st₁).2
      (.ok ([], st₂.state.gasUsed, true), st₂) := by
  simp only [addCrossShardTxDeposit, exec_get_bind, hbal, if_false]
  rw [exec_bind_of_ok (exec_reserveCrossShardDeposit_of_locked vm g st hlock)]
  simp only [exec_bind, exec_modifyState, exec_get, exec_pure, if_true]
  rfl

theorem exec_addCrossShardTxDeposit_of_unlocked
    (hbal : ¬ st.state.getBalance st.msg.fromAddr st.msg.transferTokenID < st.value)
    (hlock : transferFailureByPoSWBalanceCheck st = false) :
    exec (addCrossShardTxDeposit vm g) st =
      let reserved := crossShardReserved st.msg st.state g
      let st₁ : StateTransition := { st with
        state := ((st.state.subBalance st.msg.fromAddr st.value st.msg.transferTokenID).appendXShardList
            (crossShardDeposit st.msg (crossShardRecipient vm st.msg (st.state.getNonce st.msg.fromAddr))
              reserved st.msg.toAddr.isNone)).addBalance st.msg.fromAddr
            (((st.msg.gasLimit - st.gasUsed - reserved : Nat) : Int) * st.gasPrice) st.msg.gasTokenID }
      let st₂ := (exec (chargeFee (chargedCrossShardGas st.gasUsed)) st₁).2
      (.ok ([], st₂.state.gasUsed, false), st₂) := by
  simp only [addCrossShardTxDeposit, exec_get_bind, hbal, if_false]
  rw [exec_bind_of_ok (exec_reserveCrossShardDeposit_of_unlocked vm g st hlock)]
  simp only [exec_bind, exec_modifyState, exec_get, exec_pure, Bool.false_eq_true, if_false]
  rfl

/-- A transfer that reports no failure passed both checks. -/
theorem addCrossShardTxDeposit_checks_of_ok {ret : List UInt8} {usedGas : Nat} {st' : StateTransition}
    (h : exec (addCrossShardTxDeposit vm g) st = (.ok (ret, usedGas, false), st')) :
    ¬ st.state.getBalance st.msg.fromAddr st.msg.transferTokenID < st.value ∧
      transferFailureByPoSWBalanceCheck st = false := by
  by_cases hbal : st.state.getBalance st.msg.fromAddr st.msg.transferTokenID < st.value
  · simp only [addCrossShardTxDeposit, exec_get_bind, hbal, if_true, exec_throw] at h
    cases (Prod.mk.inj h).1
  refine ⟨hbal, ?_⟩
  cases hlock : transferFailureByPoSWBalanceCheck st with
  | false => rfl
  | true =>
    rw [exec_addCrossShardTxDeposit_of_locked vm g st hbal hlock] at h
    simp at h

section Unlocked

variable (hbal : ¬ st.state.getBalance st.msg.fromAddr st.msg.transferTokenID < st.value)
  (hlock : transferFailureByPoSWBalanceCheck st = false)
include hbal hlock

theorem xShardList_addCrossShardTxDeposit :
    (exec (addCrossShardTxDeposit vm g) st).2.state.xShardList =
      st.state.xShardList ++ [crossShardDeposit st.msg
        (crossShardRecipient vm st.msg (st.state.getNonce st.msg.fromAddr))
        (crossShardReserved st.msg st.state g) st.msg.toAddr.isNone] := by
  rw [exec_addCrossShardTxDeposit_of_unlocked vm g st hbal hlock]
  simp only [exec_chargeFee, StateDB.quarkChainConfig_addBalance,
    StateDB.quarkChainConfig_appendXShardList, StateDB.quarkChainConfig_subBalance,
    StateDB.timeStamp_addBalance, StateDB.timeStamp_appendXShardList, StateDB.timeStamp_subBalance,
    ge_iff_le, StateDB.xShardList_addGasUsed, StateDB.xShardList_addBlockFee,
    StateDB.xShardList_addBalance, StateDB.xShardList_appendXShardList,
    StateDB.xShardList_subBalance]

theorem getBalance_addCrossShardTxDeposit (a : Recipient) (t : Nat) :
    (exec (addCrossShardTxDeposit vm g) st).2.state.getBalance a t =
      st.state.getBalance a t
        - (if a = st.msg.fromAddr ∧ t = st.msg.transferTokenID then (st.value : ℤ) else 0)
        + (if a = st.msg.fromAddr ∧ t = st.msg.gasTokenID then
            ((st.msg.gasLimit - st.gasUsed - crossShardReserved st.msg st.state g : Nat) : ℤ) *
              st.gasPrice
          else 0)
        + (if a = st.evm.coinbase ∧ t = st.msg.gasTokenID then
            (chargedCrossShardGas st.gasUsed * st.gasPrice : ℤ) *
              st.state.quarkChainConfig.localFeeRate.num / st.state.quarkChainConfig.localFeeRate.den
          else 0) := by
  rw [exec_addCrossShardTxDeposit_of_unlocked vm g st hbal hlock]
  simp only [exec_chargeFee, StateDB.getBalance_addGasUsed, StateDB.getBalance_addBlockFee,
    StateDB.getBalance_addBalance, StateDB.getBalance_appendXShardList, StateDB.getBalance_subBalance,
    StateDB.quarkChainConfig_addBalance, StateDB.quarkChainConfig_appendXShardList,
    StateDB.quarkChainConfig_subBalance]
  split_ifs <;> ring

theorem netChange_addCrossShardTxDeposit (t : Nat) :
    NetChange (st.state.balances t) ((exec (addCrossShardTxDeposit vm g) st).2.state.balances t)
      ((if st.msg.transferTokenID = t then -(st.value : ℤ) else 0) +
        if st.msg.gasTokenID = t then
          ((st.msg.gasLimit - st.gasUsed - crossShardReserved st.msg st.state g : Nat) : ℤ) *
              st.gasPrice +
            (chargedCrossShardGas st.gasUsed * st.gasPrice : ℤ) *
              st.state.quarkChainConfig.localFeeRate.num / st.state.quarkChainConfig.localFeeRate.den
        else 0) := by
  rw [exec_addCrossShardTxDeposit_of_unlocked vm g st hbal hlock]
  -- the value leaves, the deposit is only recorded, the refund and the fee come in
  have hvalue := st.state.netChange_subBalance st.msg.fromAddr st.value st.msg.transferTokenID t
  have hrefund := ((st.state.subBalance st.msg.fromAddr st.value st.msg.transferTokenID).appendXShardList
    (crossShardDeposit st.msg (crossShardRecipient vm st.msg (st.state.getNonce st.msg.fromAddr))
      (crossShardReserved st.msg st.state g) st.msg.toAddr.isNone)).netChange_addBalance st.msg.fromAddr
    (((st.msg.gasLimit - st.gasUsed - crossShardReserved st.msg st.state g : Nat) : Int) * st.gasPrice)
    st.msg.gasTokenID t
  rw [StateDB.balances_appendXShardList] at hrefund
  -- the states are spelled out: unifying them through the chain of steps is slow
  have hfee := netChange_chargeFee t (chargedCrossShardGas st.gasUsed) { st with
    state := ((st.state.subBalance st.msg.fromAddr st.value st.msg.transferTokenID).appendXShardList
      (crossShardDeposit st.msg (crossShardRecipient vm st.msg (st.state.getNonce st.msg.fromAddr))
        (crossShardReserved st.msg st.state g) st.msg.toAddr.isNone)).addBalance st.msg.fromAddr
      (((st.msg.gasLimit - st.gasUsed - crossShardReserved st.msg st.state g : Nat) : Int) * st.gasPrice)
      st.msg.gasTokenID }
  refine ((hvalue.trans hrefund).trans hfee).congr_amount ?_
  split_ifs <;> simp only [StateDB.quarkChainConfig_addBalance,
    StateDB.quarkChainConfig_appendXShardList, StateDB.quarkChainConfig_subBalance, add_assoc,
    add_zero, zero_add]

end Unlocked
end Forward

/-! ### The cross-shard path of `ApplyMessage` -/

/-- A cross-shard message that `ApplyMessage` reports as not failed: its
intrinsic gas fit, the gas was bought, the nonce bumped, and
`AddCrossShardTxDeposit` ran past both its checks from there. -/
theorem applyMessage_crossShard_ok {vm : Interpreter} {evm : EVM} {msg : Message} {gp : Nat}
    {s : StateDB} {ret : List UInt8} {usedGas : Nat}
    (hx : evm.isApplyXShard = false) (hxs : msg.isCrossShard = true)
    (h : (applyMessage vm evm msg gp s).1 = .ok (ret, usedGas, false)) :
    ∃ g, intrinsicGas msg.data msg.toAddr.isNone true = .ok g ∧ g ≤ msg.gasLimit ∧
      ∃ st : StateTransition, st.msg = msg ∧ st.value = msg.amount ∧ st.gasPrice = msg.gasPrice ∧
        st.evm = evm ∧ st.gasUsed = g ∧
        st.state = (s.subBalance msg.fromAddr (msg.gasLimit * msg.gasPrice) evm.gasTokenID).setNonce
          msg.fromAddr (s.getNonce msg.fromAddr + 1) ∧
        ¬ st.state.getBalance st.msg.fromAddr st.msg.transferTokenID < st.value ∧
        transferFailureByPoSWBalanceCheck st = false ∧
        (applyMessage vm evm msg gp s).2 = (exec (addCrossShardTxDeposit vm g) st).2 := by
  have hex : exec (transitionDb vm) (newStateTransition evm msg gp s) =
      (.ok (ret, usedGas, false), (applyMessage vm evm msg gp s).2) := Prod.ext h rfl
  obtain ⟨g, st₁, hstart, hle, hpath⟩ := transitionDb_ok hex
  rcases startGas_ok hstart with ⟨hx', -⟩ | ⟨-, hpre, hig⟩
  · simp [newStateTransition, hx] at hx'
  obtain ⟨-, rfl⟩ := preCheck_ok hpre
  rcases hpath with ⟨-, hadd⟩ | ⟨hxs', -⟩
  · obtain ⟨hbal, hlock⟩ := addCrossShardTxDeposit_checks_of_ok vm g _ hadd
    simp only [newStateTransition, Nat.zero_add] at hle
    simp only [newStateTransition, hxs] at hig
    refine ⟨g, hig, hle, _, rfl, rfl, rfl, rfl, ?_, ?_, hbal, hlock, (congrArg Prod.snd hadd).symm⟩
    · simp only [StateTransition.gasUsed, newStateTransition]
      omega
    · simp [newStateTransition]
  · simp [newStateTransition, hxs] at hxs'

/-- The accounting of a cross-shard send that `ApplyMessage` reports as not
failed (so the PoSW check let it through): the deposit appended names the
right recipient, with the message's value and price and the gas reserved; the
sender pays the value and the intrinsic plus the reserved gas; the coinbase is
paid the local share of the fee on the charged gas. Every token's total then
drops by what the deposit carries away and the part of the fee that leaves the
shard, except that the gas token gains `2 ^ 64` gas at the message's price
when the intrinsic gas is below `GtxxShardCost`, which only a wrap in
`IntrinsicGas` makes it. -/
theorem applyMessage_crossShard_accounting (vm : Interpreter) (msg : Message) (coinbase : Recipient)
    (gp : Nat) (s : StateDB) {ret : List UInt8} {usedGas : Nat} (hxs : msg.isCrossShard = true)
    (h : (applyMessage vm (evmForMessage msg coinbase) msg gp s).1 = .ok (ret, usedGas, false)) :
    ∃ g, intrinsicGas msg.data msg.toAddr.isNone true = .ok g ∧ g ≤ msg.gasLimit ∧
      let s' := (applyMessage vm (evmForMessage msg coinbase) msg gp s).2.state
      let reserved := crossShardReserved msg s g
      let d := crossShardDeposit msg (crossShardRecipient vm msg (s.getNonce msg.fromAddr + 1))
        reserved msg.toAddr.isNone
      let q := s.quarkChainConfig
      let rateFee : ℤ :=
        (chargedCrossShardGas g * msg.gasPrice : ℤ) * q.localFeeRate.num / q.localFeeRate.den
      s'.xShardList = s.xShardList ++ [d] ∧
        (∀ a t, s'.getBalance a t = s.getBalance a t
          - (if a = msg.fromAddr ∧ t = msg.transferTokenID then (msg.amount : ℤ) else 0)
          - (if a = msg.fromAddr ∧ t = msg.gasTokenID then ((g + reserved) * msg.gasPrice : ℤ) else 0)
          + (if a = coinbase ∧ t = msg.gasTokenID then rateFee else 0)) ∧
        ∀ t, NetChange (s.balances t) (s'.balances t)
          (-depositOutflow t d
            - (if msg.gasTokenID = t then feeBurn q (chargedCrossShardGas g * msg.gasPrice) else 0)
            + if msg.gasTokenID = t ∧ g < gtxxShardCost then (2 ^ 64 * msg.gasPrice : ℤ) else 0) := by
  obtain ⟨g, hig, hle, st, hmsg, hvalue, hprice, hevm, hused, hstate, hbal, hlock, hfinal⟩ :=
    applyMessage_crossShard_ok rfl hxs h
  -- the EVM of a message buys gas in the message's gas token and pays `coinbase`
  replace hstate : st.state = (s.subBalance msg.fromAddr (msg.gasLimit * msg.gasPrice)
      msg.gasTokenID).setNonce msg.fromAddr (s.getNonce msg.fromAddr + 1) := hstate
  have hcoinbase : st.evm.coinbase = coinbase := by rw [hevm]; rfl
  have hreserved : crossShardReserved st.msg st.state g = crossShardReserved msg s g := by
    simp only [hmsg, hstate, crossShardReserved, StateDB.timeStamp_setNonce,
      StateDB.timeStamp_subBalance, StateDB.quarkChainConfig_setNonce,
      StateDB.quarkChainConfig_subBalance]
  have hconfig : st.state.quarkChainConfig = s.quarkChainConfig := by
    simp only [hstate, StateDB.quarkChainConfig_setNonce, StateDB.quarkChainConfig_subBalance]
  -- the refund is what the sender bought beyond the intrinsic and the reserved gas
  have hrefund : ((msg.gasLimit - g - crossShardReserved msg s g : ℕ) : ℤ) =
      msg.gasLimit - (g + crossShardReserved msg s g) := by
    have hR := crossShardReserved_le msg s g
    omega
  refine ⟨g, hig, hle, ?_, ?_, ?_⟩
  · rw [hfinal, xShardList_addCrossShardTxDeposit vm g st hbal hlock, hreserved, hstate, hmsg]
    simp
  · intro a t
    rw [hfinal, getBalance_addCrossShardTxDeposit vm g st hbal hlock, hreserved, hconfig, hmsg,
      hvalue, hprice, hcoinbase, hused, hrefund, hstate]
    simp only [StateDB.getBalance_setNonce, StateDB.getBalance_subBalance]
    split_ifs <;> ring
  · intro t
    -- the purchase of gas, then the transfer itself
    have hbuy : NetChange (s.balances t) (st.state.balances t)
        (if msg.gasTokenID = t then -((msg.gasLimit * msg.gasPrice : ℕ) : ℤ) else 0) := by
      rw [hstate, StateDB.balances_setNonce]
      exact s.netChange_subBalance _ _ _ t
    have hsend := netChange_addCrossShardTxDeposit vm g st hbal hlock t
    rw [hreserved, hconfig, hmsg, hvalue, hprice, hused, hrefund] at hsend
    rw [hfinal]
    refine (hbuy.trans hsend).congr_amount ?_
    have hc : ((chargedCrossShardGas g : ℕ) : ℤ) + gtxxShardCost =
        g + if g < gtxxShardCost then 2 ^ 64 else 0 := by
      exact_mod_cast chargedCrossShardGas_add (intrinsicGas_crossShard_lt hig)
    simp only [depositOutflow, feeBurn, crossShardDeposit]
    by_cases hgas : msg.gasTokenID = t
    · -- in the gas token the charged gas and `GtxxShardCost` add up to the intrinsic gas,
      -- and to `2 ^ 64` more after a wrap
      by_cases hg : g < gtxxShardCost <;> by_cases htr : msg.transferTokenID = t <;>
        simp only [hgas, hg, htr, if_true, if_false, and_self, and_false] at hc ⊢ <;>
        push_cast <;> linear_combination (msg.gasPrice : ℤ) * hc
    · by_cases htr : msg.transferTokenID = t <;> simp [hgas, htr]

/-- The accounting of a cross-shard send that `ApplyMessage` reports as not
failed, for a payload below `2 ^ 48` bytes: the deposit appended names the right
recipient, with the message's value and price and the gas reserved; the sender
pays the value and the intrinsic plus the reserved gas; the coinbase is paid the
local share of the fee on the intrinsic gas less `GtxxShardCost`; and every
token's total drops by exactly what the deposit carries away and the part of that
fee not paid to the coinbase. -/
theorem applyMessage_crossShard_conserves (vm : Interpreter) (msg : Message) (coinbase : Recipient)
    (gp : Nat) (s : StateDB) {ret : List UInt8} {usedGas : Nat} (hxs : msg.isCrossShard = true)
    (hdata : msg.data.length < 2 ^ 48)
    (h : (applyMessage vm (evmForMessage msg coinbase) msg gp s).1 = .ok (ret, usedGas, false)) :
    ∃ g, intrinsicGas msg.data msg.toAddr.isNone true = .ok g ∧ gtxxShardCost ≤ g ∧
      g ≤ msg.gasLimit ∧
      let s' := (applyMessage vm (evmForMessage msg coinbase) msg gp s).2.state
      let reserved := crossShardReserved msg s g
      let d := crossShardDeposit msg (crossShardRecipient vm msg (s.getNonce msg.fromAddr + 1))
        reserved msg.toAddr.isNone
      let q := s.quarkChainConfig
      let rateFee : ℤ :=
        ((g - gtxxShardCost : ℕ) * msg.gasPrice : ℤ) * q.localFeeRate.num / q.localFeeRate.den
      s'.xShardList = s.xShardList ++ [d] ∧
        (∀ a t, s'.getBalance a t = s.getBalance a t
          - (if a = msg.fromAddr ∧ t = msg.transferTokenID then (msg.amount : ℤ) else 0)
          - (if a = msg.fromAddr ∧ t = msg.gasTokenID then ((g + reserved) * msg.gasPrice : ℤ) else 0)
          + (if a = coinbase ∧ t = msg.gasTokenID then rateFee else 0)) ∧
        ∀ t, NetChange (s.balances t) (s'.balances t)
          (-depositOutflow t d
            - if msg.gasTokenID = t then feeBurn q ((g - gtxxShardCost : ℕ) * msg.gasPrice) else 0) := by
  obtain ⟨g, hig, hle, hlist, hbal, hnet⟩ :=
    applyMessage_crossShard_accounting vm msg coinbase gp s hxs h
  -- the payload keeps `IntrinsicGas` from wrapping, so the charged gas is the plain difference
  have hge := gtxxShardCost_le_intrinsicGas hdata hig
  have hcharged : chargedCrossShardGas g = g - gtxxShardCost :=
    chargedCrossShardGas_of_le hge (intrinsicGas_crossShard_lt hig)
  have hnowrap : ¬(g < gtxxShardCost) := Nat.not_lt.mpr hge
  refine ⟨g, hig, hge, hle, hlist, fun a t => ?_, fun t => ?_⟩
  · rw [hbal a t, hcharged]
  · have hnet_t := hnet t
    rw [hcharged] at hnet_t
    simpa only [hnowrap, and_false, if_false, add_zero] using hnet_t

section Transfer

/-- Every account holds `10 ^ 6` of every token. -/
def fundedState : StateDB :=
  { sampleState with accounts := fun _ => ⟨fun _ => 10 ^ 6, 0, [], fun _ => 0⟩ }

/-- A transfer of `7` units from account `1` to account `2` of another shard,
which buys `40000` gas at price `2`. -/
def xShardTransferMsg : Message :=
  { fromAddr := 1, toAddr := some 2, nonce := 0, amount := 7, gasLimit := 40000, gasPrice := 2,
    data := [], checkNonce := true, isCrossShard := true, fromFullShardKey := 0, toFullShardKey := 1,
    txHash := 12, transferTokenID := 0, gasTokenID := 0 }

theorem xShardTransferMsg_conserves :
    xShardTransferMsg.isCrossShard = true ∧ xShardTransferMsg.data.length < 2 ^ 48 ∧
      (applyMessage transferInterpreter (evmForMessage xShardTransferMsg 5) xShardTransferMsg 100000
        fundedState).1 = .ok ([], 21000, false) ∧
      ∃ g, intrinsicGas xShardTransferMsg.data xShardTransferMsg.toAddr.isNone true = .ok g ∧
        gtxxShardCost ≤ g ∧ g ≤ xShardTransferMsg.gasLimit ∧
        let s' := (applyMessage transferInterpreter (evmForMessage xShardTransferMsg 5)
          xShardTransferMsg 100000 fundedState).2.state
        let reserved := crossShardReserved xShardTransferMsg fundedState g
        let d := crossShardDeposit xShardTransferMsg (crossShardRecipient transferInterpreter
          xShardTransferMsg (fundedState.getNonce xShardTransferMsg.fromAddr + 1)) reserved
          xShardTransferMsg.toAddr.isNone
        let q := fundedState.quarkChainConfig
        let rateFee : ℤ := ((g - gtxxShardCost : ℕ) * xShardTransferMsg.gasPrice : ℤ) *
          q.localFeeRate.num / q.localFeeRate.den
        s'.xShardList = fundedState.xShardList ++ [d] ∧
          (∀ a t, s'.getBalance a t = fundedState.getBalance a t
            - (if a = xShardTransferMsg.fromAddr ∧ t = xShardTransferMsg.transferTokenID then
                (xShardTransferMsg.amount : ℤ) else 0)
            - (if a = xShardTransferMsg.fromAddr ∧ t = xShardTransferMsg.gasTokenID then
                ((g + reserved) * xShardTransferMsg.gasPrice : ℤ) else 0)
            + (if a = 5 ∧ t = xShardTransferMsg.gasTokenID then rateFee else 0)) ∧
          ∀ t, NetChange (fundedState.balances t) (s'.balances t)
            (-depositOutflow t d
              - if xShardTransferMsg.gasTokenID = t then
                  feeBurn q ((g - gtxxShardCost : ℕ) * xShardTransferMsg.gasPrice) else 0) := by
  have hrun : (applyMessage transferInterpreter (evmForMessage xShardTransferMsg 5) xShardTransferMsg
      100000 fundedState).1 = .ok ([], 21000, false) := rfl
  exact ⟨rfl, by decide, hrun, applyMessage_crossShard_conserves transferInterpreter xShardTransferMsg 5
    100000 fundedState rfl (by decide) hrun⟩

end Transfer

end Core
