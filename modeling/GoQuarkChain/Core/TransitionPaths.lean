import GoQuarkChain.Vm.Evm

/-!
# Paths of a transaction through the EVM

`TransitionDb` sends a transaction down one of three paths: a cross-shard
transfer (`AddCrossShardTxDeposit`), a creation (`EVM.Create`) or a call
(`EVM.Call`). Two duties are spread over the paths. The sender's nonce is
bumped by `TransitionDb` before a cross-shard transfer and before a call, and
by `EVM.create` for a creation. The PoSW stake lock, the disallow map that
`BuildSenderDisallowMap` puts in the state, is checked by `TransitionDb`
before a call and by `AddCrossShardTxDeposit`, and nowhere on the creation
path. With the EVM's frames plugged in (`Runtime.interpreter`), a creation in
a non-default token returns from `EVM.create` before the nonce is bumped, and
a creation in the default token moves its value whatever the lock says.
-/

namespace Core

open State Vm ExceptState

/-! ### The PoSW stake lock -/

/-- `PoSW.BuildSenderDisallowMap`, given the coinbases of the window that
`getCoinbaseAddressUntilBlock` returns: every recipient is locked
`TotalStakePerBlock` for each block it mined there, and for the block
`coinbase` is mining. A disabled PoSW gives a nil map, where every lookup
misses. -/
def buildSenderDisallowMap (enabled : Bool) (totalStakePerBlock : Nat)
    (coinbaseAddrs : List Recipient) (coinbase : Option Recipient) : Recipient → Option Int :=
  if enabled = false then fun _ => none
  else
    let recipients := coinbaseAddrs ++ coinbase.toList
    fun a =>
      if a ∈ recipients then some ((recipients.count a * totalStakePerBlock : Nat) : Int)
      else none

/-! ### The sender's nonce -/

section Nonce

variable {st st' : StateTransition}

/-- The end of a transition moves gas and fees, never a nonce. -/
theorem finishTransition_ok_nonce {ret : List UInt8} {vmerr : Option VmError}
    {r : List UInt8 × Nat × Bool} (h : exec (finishTransition ret vmerr) st = (.ok r, st'))
    (a : Recipient) : st'.state.getNonce a = st.state.getNonce a := by
  rw [exec_finishTransition] at h
  by_cases hi : vmerr = some .insufficientBalance
  · rw [if_pos hi] at h
    exact absurd (Prod.mk.inj h).1 (by simp)
  · rw [if_neg hi] at h
    obtain ⟨-, rfl⟩ := Prod.mk.inj h
    simp [exec_chargeFee, exec_refundGas]

/-- A creation in another token than the default one leaves every nonce as
it was when `TransitionDb` succeeds: the purchase of gas, the creation (which
returns at once) and the end touch balances only. -/
theorem transitionDb_token_creation_keeps_nonce (rt : Runtime) {r : List UInt8 × Nat × Bool}
    (hx : st.evm.isApplyXShard = false) (hcreate : st.msg.toAddr = none)
    (hin : st.msg.isCrossShard = false)
    (htoken : st.evm.transferTokenID ≠ st.state.quarkChainConfig.defaultChainTokenID)
    (h : exec (transitionDb rt.interpreter) st = (.ok r, st')) (a : Recipient) :
    st'.state.getNonce a = st.state.getNonce a := by
  obtain ⟨g, st₁, hstart, -, hpath⟩ := transitionDb_ok h
  rcases hpath with ⟨hxs, -⟩ | ⟨-, ret, vmerr, st₃, hevm, hfin⟩
  · rw [hin] at hxs
    cases hxs
  rcases startGas_ok hstart with ⟨hx', -⟩ | ⟨-, hpre, -⟩
  · rw [hx] at hx'
    cases hx'
  obtain ⟨-, rfl⟩ := preCheck_ok hpre
  -- the creation path, where `EVM.create` returns before the nonce
  rw [exec_runEvm, if_pos (by simp [hcreate])] at hevm
  obtain ⟨-, rfl⟩ := Prod.mk.inj hevm
  rw [finishTransition_ok_nonce hfin]
  simp only [Runtime.interpreter]
  rw [EVM.Create_of_token_ne_default rt st.evm 0
    (st.state.subBalance st.msg.fromAddr (st.msg.gasLimit * st.gasPrice) st.evm.gasTokenID)
    _ _ _ _ _ htoken]
  simp

/-- `ApplyTransaction` of an in-shard creation in another token than the
default one: when it succeeds, the sender's nonce is the one it had, so the
same signed transaction passes the nonce check again. -/
theorem applyTransaction_token_creation_keeps_nonce (rt : Runtime)
    (sender : EvmTransaction → Option Recipient) (coinbase : Recipient) (gp : Nat) (s : StateDB)
    (tx : EvmTransaction) (usedGas : Nat) (fromAddr : Recipient) (hsender : sender tx = some fromAddr)
    (hcreate : tx.recipient = none) (hin : tx.isCrossShard = false)
    (htoken : tx.transferTokenID ≠ s.quarkChainConfig.defaultChainTokenID)
    {r : List UInt8 × Receipt × Nat}
    (hok : (applyTransaction rt.interpreter sender coinbase gp s tx usedGas).result = .ok r) :
    (applyTransaction rt.interpreter sender coinbase gp s tx usedGas).state.getNonce fromAddr =
      s.getNonce fromAddr := by
  simp only [applyTransaction, EvmTransaction.asMessage, hsender] at hok ⊢
  split
  · rename_i e hm
    simp only [hm] at hok
    cases hok
  · rename_i ret gas failed hm
    have hex : exec (transitionDb rt.interpreter) (newStateTransition _ _ gp _) =
        (.ok (ret, gas, failed), _) := Prod.ext hm rfl
    exact transitionDb_token_creation_keeps_nonce rt rfl hcreate hin htoken hex fromAddr

end Nonce

section CreationExamples

/-- A creation from account `1` in token `1`, with free gas and no init code. -/
def tokenCreationTx : EvmTransaction :=
  { accountNonce := 0, price := 0, gasLimit := 53000, recipient := none, amount := 1,
    payload := [], networkId := 3, fromFullShardKey := 0, toFullShardKey := 0, gasTokenID := 0,
    transferTokenID := 1, fromShardSize := 1, toShardSize := 1, hash := 9 }

/-- The creation in token `1` is applied, leaves the sender's nonce at `0`,
and is then applied a second time in the same block. -/
theorem tokenCreation_applies_twice :
    (applyTransaction haltingRuntime.interpreter (fun _ => some 1) 5 200000 tokenState
        tokenCreationTx 0).result.isOk = true ∧
      (applyTransaction haltingRuntime.interpreter (fun _ => some 1) 5 200000 tokenState
        tokenCreationTx 0).state.getNonce 1 = 0 ∧
      (applyTransaction haltingRuntime.interpreter (fun _ => some 1) 5
        (applyTransaction haltingRuntime.interpreter (fun _ => some 1) 5 200000 tokenState
          tokenCreationTx 0).gp
        (applyTransaction haltingRuntime.interpreter (fun _ => some 1) 5 200000 tokenState
          tokenCreationTx 0).state
        tokenCreationTx
        (applyTransaction haltingRuntime.interpreter (fun _ => some 1) 5 200000 tokenState
          tokenCreationTx 0).usedGas).result.isOk = true := by
  decide

/-- The creation applied once leaves account `1` at the nonce it had. -/
theorem tokenCreationTx_keeps_nonce :
    ∃ r, (applyTransaction haltingRuntime.interpreter (fun _ => some 1) 5 200000 tokenState
        tokenCreationTx 0).result = .ok r ∧
      (applyTransaction haltingRuntime.interpreter (fun _ => some 1) 5 200000 tokenState
        tokenCreationTx 0).state.getNonce 1 = tokenState.getNonce 1 :=
  ⟨_, rfl, applyTransaction_token_creation_keeps_nonce haltingRuntime (fun _ => some 1) 5 200000
    tokenState tokenCreationTx 0 1 rfl rfl rfl (by decide) rfl⟩

/-- Every account holds one unit of every token, and account `1`, which mined
one block of the PoSW window, is locked `TotalStakePerBlock` (240000 QKC). -/
def stakedState : StateDB :=
  { sampleState with
    senderDisallowMap := buildSenderDisallowMap true (240000 * 10 ^ 18) [1] none }

/-- The creation from account `1` in the default token, sending its one unit. -/
def stakedCreationTx : EvmTransaction := { tokenCreationTx with transferTokenID := 0, hash := 10 }

/-- The locked sender's creation goes through: account `1`, whose balance is
below the value plus its lock, is not refused, and its unit moves to the new
contract at address `0`. -/
theorem lockedSender_creation_moves_value :
    stakedState.senderDisallowMap 1 = some (240000 * 10 ^ 18) ∧
      stakedState.getBalance 1 0 < stakedCreationTx.amount + 240000 * 10 ^ 18 ∧
      (applyTransaction haltingRuntime.interpreter (fun _ => some 1) 5 200000 stakedState
        stakedCreationTx 0).result.isOk = true ∧
      (applyTransaction haltingRuntime.interpreter (fun _ => some 1) 5 200000 stakedState
        stakedCreationTx 0).state.getBalance 1 0 = 0 ∧
      (applyTransaction haltingRuntime.interpreter (fun _ => some 1) 5 200000 stakedState
        stakedCreationTx 0).state.getBalance 0 0 = 2 := by
  decide

end CreationExamples

end Core
