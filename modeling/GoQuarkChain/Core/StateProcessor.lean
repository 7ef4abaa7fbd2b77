import GoQuarkChain.Core.StateTransition

/-!
# Applying a transaction to the state

`ApplyTransaction` recovers the message of an EVM transaction, runs the state
transition against the block's gas pool and, on success, adds the gas to the
block's running total and builds the receipt. Go mutates the state, the gas
pool and `usedGas` in place; `ApplyOutcome` returns all three together with
the result, so what a failed call leaves behind can be stated. Signature
recovery (`types.Sender`) is a parameter. Receipt logs and bloom come from
the EVM's log journal and are not modelled.
-/

namespace Core

open State

/-- `types.EvmTransaction` with the shard sizes `validateTx` fills in. -/
structure EvmTransaction where
  accountNonce : Nat
  price : Nat
  gasLimit : Nat
  recipient : Option Recipient
  amount : Nat
  payload : List UInt8
  networkId : Nat
  fromFullShardKey : Nat
  toFullShardKey : Nat
  gasTokenID : Nat
  transferTokenID : Nat
  fromShardSize : Nat
  toShardSize : Nat
  hash : Nat
deriving DecidableEq, Repr

def EvmTransaction.fromChainID (tx : EvmTransaction) : Nat := tx.fromFullShardKey >>> 16

def EvmTransaction.toChainID (tx : EvmTransaction) : Nat := tx.toFullShardKey >>> 16

def EvmTransaction.fromShardID (tx : EvmTransaction) : Nat :=
  tx.fromFullShardKey &&& (tx.fromShardSize - 1)

def EvmTransaction.toShardID (tx : EvmTransaction) : Nat :=
  tx.toFullShardKey &&& (tx.toShardSize - 1)

def EvmTransaction.isCrossShard (tx : EvmTransaction) : Bool :=
  !(tx.fromChainID == tx.toChainID && tx.fromShardID == tx.toShardID)

/-- `AsMessage`, given what signature recovery returned. -/
def EvmTransaction.asMessage (tx : EvmTransaction) (sender : Option Recipient) :
    Except TxError Message :=
  match sender with
  | none => .error .invalidSender
  | some fromAddr => .ok
    { fromAddr := fromAddr, toAddr := tx.recipient, nonce := tx.accountNonce,
      amount := tx.amount, gasLimit := tx.gasLimit, gasPrice := tx.price, data := tx.payload,
      checkNonce := true, isCrossShard := tx.isCrossShard,
      fromFullShardKey := tx.fromFullShardKey, toFullShardKey := tx.toFullShardKey,
      txHash := tx.hash, transferTokenID := tx.transferTokenID, gasTokenID := tx.gasTokenID }

/-- `types.Receipt`, without logs and bloom. -/
structure Receipt where
  failed : Bool
  cumulativeGasUsed : Nat
  txHash : Nat
  gasUsed : Nat
  contractAddress : Recipient
  contractFullShardKey : Nat
deriving DecidableEq, Repr

/-- The EVM context `NewEVMContext` builds for a block's transaction. -/
def evmForMessage (msg : Message) (coinbase : Recipient) : EVM :=
  { coinbase := coinbase, gasTokenID := msg.gasTokenID, transferTokenID := msg.transferTokenID,
    isApplyXShard := false, xShardGasUsedStart := 0, contractAddress := none }

/-- Everything `ApplyTransaction` leaves: the state, the gas pool, the block's
gas counter and its result. -/
structure ApplyOutcome where
  state : StateDB
  gp : Nat
  usedGas : Nat
  result : Except TxError (List UInt8 × Receipt × Nat)

/-- `ApplyTransaction`. -/
def applyTransaction (vm : Interpreter) (sender : EvmTransaction → Option Recipient)
    (coinbase : Recipient) (gp : Nat) (statedb : StateDB) (tx : EvmTransaction)
    (usedGas : Nat) : ApplyOutcome :=
  let statedb := statedb.setFullShardKey tx.toFullShardKey
  match tx.asMessage (sender tx) with
  | .error e => ⟨statedb, gp, usedGas, .error e⟩
  | .ok msg =>
    let (r, st) := applyMessage vm (evmForMessage msg coinbase) msg gp statedb
    match r with
    | .error e => ⟨st.state, st.gp, usedGas, .error e⟩
    | .ok (ret, gas, failed) =>
      let contractAddress :=
        if msg.toAddr.isNone && !msg.isCrossShard && !failed then
          vm.createAddress msg.fromAddr msg.toFullShardKey tx.accountNonce
        else 0
      let receipt : Receipt :=
        { failed := failed, cumulativeGasUsed := st.state.gasUsed, txHash := tx.hash,
          gasUsed := gas, contractAddress := contractAddress,
          contractFullShardKey := tx.toFullShardKey }
      ⟨st.state, st.gp, usedGas + gas, .ok (ret, receipt, gas)⟩

/-- `EVM.Call` and `EVM.create` for accounts without code: the value check,
then the transfer (a creation also bumps the caller's nonce and pays the new
contract, at address `0` unless one is given). -/
def transferInterpreter : Interpreter where
  call evm s caller addr _ gas value :=
    if s.getBalance caller evm.transferTokenID < value then (s, [], gas, some .insufficientBalance)
    else
      ((s.subBalance caller value evm.transferTokenID).addBalance addr value evm.transferTokenID,
        [], gas, none)
  create evm s caller _ gas value contractAddress :=
    if s.getBalance caller evm.transferTokenID < value then (s, [], gas, some .insufficientBalance)
    else (((s.setNonce caller (s.getNonce caller + 1)).subBalance caller value
        evm.transferTokenID).addBalance (contractAddress.getD 0) value evm.transferTokenID,
        [], gas, none)
  createAddress _ _ _ := 0

theorem transferInterpreter_keepsState : transferInterpreter.KeepsStateOnInsufficientBalance := by
  constructor
  · intro evm s caller addr data gas value h
    simp only [transferInterpreter] at h ⊢
    split_ifs at h ⊢
    rfl
  · intro evm s caller data gas value contractAddress h
    simp only [transferInterpreter] at h ⊢
    split_ifs at h ⊢
    rfl

/-- A configuration with one token, id `0`, and half of each fee to the miner. -/
def sampleConfig : Config.QuarkChainConfig :=
  { shards := SortedMap.empty, chainIdToShardSize := SortedMap.empty, localFeeRate := 1 / 2,
    enableEvmTimeStamp := 0, defaultChainTokenID := 0, allowedTokenIDs := [0], networkID := 3,
    xShardGasDDOSFixRootHeight := 0, minMiningGasPrice := 0 }

/-- A state in which every account holds one unit of every token. -/
def sampleState : StateDB :=
  { accounts := fun _ => ⟨fun _ => 1, 0, [], fun _ => 0⟩, refund := 0, gasUsed := 0,
    xShardReceiveGasUsed := 0, blockFee := SortedMap.empty, xShardList := [], timeStamp := 0,
    blockCoinbase := 0, gasLimit := 30000, senderDisallowMap := fun _ => none,
    quarkChainConfig := sampleConfig, fullShardKey := 0 }

/-- An in-shard transfer from account `1` that offers one unit of gas at price one. -/
def underfundedTx : EvmTransaction :=
  { accountNonce := 0, price := 1, gasLimit := 1, recipient := some 2, amount := 0,
    payload := [], networkId := 3, fromFullShardKey := 0, toFullShardKey := 0, gasTokenID := 0,
    transferTokenID := 0, fromShardSize := 1, toShardSize := 1, hash := 7 }

/-- `underfundedTx` buys its gas, then fails on the intrinsic gas: the error is
returned with the sender debited and the gas pool drawn down. -/
theorem applyTransaction_underfunded_not_atomic :
    (applyTransaction transferInterpreter (fun _ => some 1) 0 30000 sampleState underfundedTx 0).result =
        .error (.vm .outOfGas) ∧
      (applyTransaction transferInterpreter (fun _ => some 1) 0 30000 sampleState underfundedTx
        0).state.getBalance 1 0 = 0 ∧
      sampleState.getBalance 1 0 = 1 ∧
      (applyTransaction transferInterpreter (fun _ => some 1) 0 30000 sampleState underfundedTx 0).gp =
        29999 := by
  refine ⟨rfl, ?_, rfl, rfl⟩
  decide

/-- A failed `ApplyTransaction` leaves the block's gas counter alone. The state
and the gas pool are untouched when the sender, the nonce or the purchase of
gas is at fault; otherwise the gas was bought (the pool drawn down, the sender
debited in the gas token) and the transaction stopped on its intrinsic gas or
on a value transfer the sender cannot pay, after which the sender's nonce may
have been bumped. -/
theorem applyTransaction_error_effects (vm : Interpreter)
    (hvm : vm.KeepsStateOnInsufficientBalance) (sender : EvmTransaction → Option Recipient)
    (coinbase : Recipient) (gp : Nat) (s : StateDB) (tx : EvmTransaction) (usedGas : Nat)
    (o : ApplyOutcome) (e : TxError) (ho : applyTransaction vm sender coinbase gp s tx usedGas = o)
    (h : o.result = .error e) :
    o.usedGas = usedGas ∧
      ((o.state = s.setFullShardKey tx.toFullShardKey ∧ o.gp = gp) ∨
        ∃ fromAddr, sender tx = some fromAddr ∧ tx.gasLimit ≤ gp ∧ o.gp = gp - tx.gasLimit ∧
          ((e = .vm .outOfGas ∧
              o.state = (s.setFullShardKey tx.toFullShardKey).subBalance fromAddr
                (tx.gasLimit * tx.price) tx.gasTokenID) ∨
            (e = .vm .insufficientBalance ∧
              (o.state = (s.setFullShardKey tx.toFullShardKey).subBalance fromAddr
                  (tx.gasLimit * tx.price) tx.gasTokenID ∨
                o.state = ((s.setFullShardKey tx.toFullShardKey).subBalance fromAddr
                  (tx.gasLimit * tx.price) tx.gasTokenID).setNonce fromAddr
                    (s.getNonce fromAddr + 1))))) := by
  subst ho
  cases hs : sender tx with
  | none =>
    simp [applyTransaction, EvmTransaction.asMessage, hs]
  | some fromAddr =>
    simp only [applyTransaction, EvmTransaction.asMessage, hs] at h ⊢
    split
    · rename_i e' hm
      simp only [hm, Except.error.injEq] at h
      subst h
      rcases applyMessage_error vm hvm _ _ gp _ rfl hm with ⟨hst, hgp⟩ | ⟨hgl, hgp, hcase⟩
      · exact ⟨rfl, Or.inl ⟨hst, hgp⟩⟩
      · exact ⟨rfl, Or.inr ⟨fromAddr, rfl, hgl, hgp, hcase⟩⟩
    · rename_i hm
      simp [hm] at h

/-- An in-shard transfer of five units from account `1`, with free gas. -/
def overdrawnTx : EvmTransaction :=
  { underfundedTx with gasLimit := 21000, price := 0, amount := 5 }

theorem overdrawnTx_error_keeps_usedGas :
    transferInterpreter.KeepsStateOnInsufficientBalance ∧
      (applyTransaction transferInterpreter (fun _ => some 1) 0 30000 sampleState overdrawnTx
        0).result = .error (.vm .insufficientBalance) ∧
      (applyTransaction transferInterpreter (fun _ => some 1) 0 30000 sampleState overdrawnTx
        0).usedGas = 0 :=
  ⟨transferInterpreter_keepsState, rfl,
    (applyTransaction_error_effects transferInterpreter transferInterpreter_keepsState
      (fun _ => some 1) 0 30000 sampleState overdrawnTx 0 _ (.vm .insufficientBalance) rfl rfl).1⟩

end Core
