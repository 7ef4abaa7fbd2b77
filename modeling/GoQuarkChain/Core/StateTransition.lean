import GoQuarkChain.State.StateDB
import GoQuarkChain.Lib.ExceptState

/-!
# The state transition of one message

`StateTransition` keeps the gas pool, the gas left, the message and the state,
and its methods mutate them; a method that fails returns an error and keeps
every change made before the failure. That is the monad `TransitionM`: an
error thrown in `ExceptT` over `StateM` leaves the state where it was.
The EVM interpreter (`EVM.Call`, `EVM.Create`, `vm.CreateAddress`) is a
parameter, `Interpreter`; the gas constants are those of go-ethereum's
`params` package and of `params.GtxxShardCost`.
-/

namespace Core

open State

inductive VmError where
  | outOfGas
  | insufficientBalance
  | poswSenderNotAllowed
  | executionReverted
  | other (msg : String)
deriving DecidableEq, Repr

/-- The errors a state transition reports. -/
inductive TxError where
  | nonceTooHigh
  | nonceTooLow
  | insufficientBalanceForGas
  | gasLimitReached
  | vm (e : VmError)
  | invalidSender
deriving DecidableEq, Repr

/-- `types.Message`. -/
structure Message where
  fromAddr : Recipient
  toAddr : Option Recipient
  nonce : Nat
  amount : Nat
  gasLimit : Nat
  gasPrice : Nat
  data : List UInt8
  checkNonce : Bool
  isCrossShard : Bool
  fromFullShardKey : Nat
  toFullShardKey : Nat
  txHash : Nat
  transferTokenID : Nat
  gasTokenID : Nat
deriving DecidableEq, Repr

/-- The fields of `vm.EVM` and its context that the transition reads. -/
structure EVM where
  coinbase : Recipient
  gasTokenID : Nat
  transferTokenID : Nat
  isApplyXShard : Bool
  xShardGasUsedStart : Nat
  contractAddress : Option Recipient
deriving DecidableEq, Repr

/-- What the EVM does with a call or a creation: the state after it, the
returned bytes, the gas left and the error, if any. -/
structure Interpreter where
  call : EVM → StateDB → (caller addr : Recipient) → List UInt8 → (gas value : Nat) →
    StateDB × List UInt8 × Nat × Option VmError
  create : EVM → StateDB → (caller : Recipient) → List UInt8 → (gas value : Nat) →
    Option Recipient → StateDB × List UInt8 × Nat × Option VmError
  createAddress : Recipient → Nat → Nat → Recipient

/-- What `EVM.Call` and `EVM.create` guarantee before anything else: a value
transfer the caller cannot pay fails with `ErrInsufficientBalance` before the
state is touched. -/
def Interpreter.KeepsStateOnInsufficientBalance (vm : Interpreter) : Prop :=
  (∀ evm s caller addr data gas value,
    (vm.call evm s caller addr data gas value).2.2.2 = some .insufficientBalance →
      (vm.call evm s caller addr data gas value).1 = s) ∧
  (∀ evm s caller data gas value contractAddress,
    (vm.create evm s caller data gas value contractAddress).2.2.2 = some .insufficientBalance →
      (vm.create evm s caller data gas value contractAddress).1 = s)

def txGas : Nat := 21000
def txGasContractCreation : Nat := 53000
def txDataZeroGas : Nat := 4
def txDataNonZeroGas : Nat := 68
def gtxxShardCost : Nat := 9000
def maxUint64 : Nat := 2 ^ 64 - 1

/-- `IntrinsicGas`, with its two overflow checks. -/
def intrinsicGas (data : List UInt8) (contractCreation isCrossShard : Bool) :
    Except TxError Nat := do
  let base := if contractCreation then txGasContractCreation else txGas
  let withData ← if data.length > 0 then do
      let nz := (data.filter (· != 0)).length
      if (maxUint64 - base) / txDataNonZeroGas < nz then throw (.vm .outOfGas)
      let g := base + nz * txDataNonZeroGas
      let z := data.length - nz
      if (maxUint64 - g) / txDataZeroGas < z then throw (.vm .outOfGas)
      pure (g + z * txDataZeroGas)
    else pure base
  return if isCrossShard then (withData + gtxxShardCost) % 2 ^ 64 else withData

structure StateTransition where
  gp : Nat
  msg : Message
  gas : Nat
  gasPrice : Nat
  initialGas : Nat
  value : Nat
  data : List UInt8
  state : StateDB
  evm : EVM

/-- `NewStateTransition`. -/
def newStateTransition (evm : EVM) (msg : Message) (gp : Nat) (state : StateDB) :
    StateTransition :=
  { gp := gp, msg := msg, gas := 0, gasPrice := msg.gasPrice, initialGas := 0,
    value := msg.amount, data := msg.data, state := state, evm := evm }

/-- Methods of `StateTransition`: changes made before an error are kept. -/
abbrev TransitionM := ExceptT TxError (StateM StateTransition)

def modifyState (f : StateDB → StateDB) : TransitionM Unit :=
  modify fun st => { st with state := f st.state }

def useGas (amount : Nat) : TransitionM Unit := do
  let st ← get
  if st.gas < amount then throw (.vm .outOfGas)
  set { st with gas := st.gas - amount }

/-- `buyGas`: check the balance, draw from the gas pool, debit the sender. -/
def buyGas : TransitionM Unit := do
  let st ← get
  let mgval : Int := st.msg.gasLimit * st.gasPrice
  if st.state.getBalance st.msg.fromAddr st.evm.gasTokenID < mgval then
    throw .insufficientBalanceForGas
  if st.gp < st.msg.gasLimit then throw .gasLimitReached
  set { st with gp := st.gp - st.msg.gasLimit, gas := st.gas + st.msg.gasLimit,
                initialGas := st.msg.gasLimit,
                state := st.state.subBalance st.msg.fromAddr mgval st.evm.gasTokenID }

def preCheck : TransitionM Unit := do
  let st ← get
  if st.msg.checkNonce then
    let nonce := st.state.getNonce st.msg.fromAddr
    if nonce < st.msg.nonce then throw .nonceTooHigh
    else if nonce > st.msg.nonce then throw .nonceTooLow
  buyGas

def StateTransition.gasUsed (st : StateTransition) : Nat := st.initialGas - st.gas

def preFill : TransitionM Unit :=
  modify fun st =>
    let gas := (st.gas + st.msg.gasLimit + st.evm.xShardGasUsedStart) % 2 ^ 64
    { st with gas := gas, initialGas := gas }

/-- `chargeFee`: the local share of the fee goes to the coinbase and to the
block fee; the gas used is counted against the block. -/
def chargeFee (gasUsed : Nat) : TransitionM Unit := do
  let st ← get
  let cfg := st.state.quarkChainConfig
  let fee : Int := gasUsed * st.gasPrice
  let rateFee : Int := fee * cfg.localFeeRate.num / cfg.localFeeRate.den
  let used := if st.state.timeStamp ≥ cfg.enableEvmTimeStamp then gasUsed else st.gasUsed
  modifyState fun s =>
    ((s.addBalance st.evm.coinbase rateFee st.msg.gasTokenID).addBlockFee
      (SortedMap.empty.insert st.msg.gasTokenID rateFee)).addGasUsed used

/-- `refundGas`: the refund counter (on success), then the unused gas back to
the sender and to the gas pool. -/
def refundGas (vmerr : Option VmError) : TransitionM Unit := do
  let st ← get
  let refund := if vmerr = none then min (st.gasUsed / 2) st.state.refund else 0
  let gas := st.gas + refund
  let s := st.state.subRefund st.state.refund
  set { st with gas := gas, gp := st.gp + gas,
                state := s.addBalance st.msg.fromAddr (gas * st.gasPrice) st.msg.gasTokenID }

/-- `transferFailureByPoSWBalanceCheck`. -/
def transferFailureByPoSWBalanceCheck (st : StateTransition) : Bool :=
  match st.state.senderDisallowMap st.msg.fromAddr with
  | some v =>
    decide ((st.msg.amount : Int) + v >
      st.state.getBalance st.msg.fromAddr st.state.quarkChainConfig.defaultChainTokenID)
  | none => false

/-- The deposit `AddCrossShardTxDeposit` appends, given the gas it reserves and
the recipient it names. -/
def crossShardDeposit (msg : Message) (recipient : Recipient) (gasRemained : Nat)
    (createContract : Bool) : CrossShardTransactionDeposit :=
  { txHash := msg.txHash,
    fromAddr := ⟨msg.fromAddr, msg.fromFullShardKey⟩,
    toAddr := ⟨recipient, msg.toFullShardKey⟩,
    value := msg.amount, gasPrice := msg.gasPrice, gasRemained := gasRemained,
    gasTokenID := msg.gasTokenID, transferTokenID := msg.transferTokenID,
    messageData := msg.data, createContract := createContract, isFromRootChain := false }

/-- The middle of `AddCrossShardTxDeposit`: a sender the PoSW check refuses
loses all its gas; otherwise the value moves out and the deposit for the target
shard is recorded, with the gas it reserves there. It returns whether the
transfer failed and the gas reserved. -/
def reserveCrossShardDeposit (vm : Interpreter) (intrinsicGas : Nat) :
    TransitionM (Bool × Nat) := do
  let st ← get
  let msg := st.msg
  if transferFailureByPoSWBalanceCheck st then do
    set { st with gas := 0 }
    pure (true, 0)
  else match msg.toAddr with
    | none => do
      let s := st.state.subBalance msg.fromAddr st.value msg.transferTokenID
      let reserved := msg.gasLimit - intrinsicGas
      let recipient := vm.createAddress msg.fromAddr msg.fromFullShardKey (s.getNonce msg.fromAddr)
      set { st with state := s.appendXShardList (crossShardDeposit msg recipient reserved true) }
      pure (false, reserved)
    | some recipient => do
      let s := st.state.subBalance msg.fromAddr st.value msg.transferTokenID
      let reserved :=
        if s.timeStamp ≥ s.quarkChainConfig.enableEvmTimeStamp then msg.gasLimit - intrinsicGas
        else 0
      set { st with state := s.appendXShardList (crossShardDeposit msg recipient reserved false) }
      pure (false, reserved)

/-- `AddCrossShardTxDeposit`: move the value out, record the deposit for the
target shard, return the gas neither used here nor reserved there, and charge
the local part of the gas. -/
def addCrossShardTxDeposit (vm : Interpreter) (intrinsicGas : Nat) :
    TransitionM (List UInt8 × Nat × Bool) := do
  let st ← get
  let msg := st.msg
  if st.state.getBalance msg.fromAddr msg.transferTokenID < st.value then
    throw (.vm .insufficientBalance)
  else do
    let (failed, remoteGasReserved) ← reserveCrossShardDeposit vm intrinsicGas
    let st ← get
    let localGasUsed := st.gasUsed
    let gasRemained := msg.gasLimit - localGasUsed - remoteGasReserved
    modifyState fun s => s.addBalance msg.fromAddr (gasRemained * st.gasPrice) msg.gasTokenID
    -- `localGasUsed -= GtxxShardCost` is a subtraction of uint64s
    chargeFee (if failed then localGasUsed else (localGasUsed + 2 ^ 64 - gtxxShardCost) % 2 ^ 64)
    let st ← get
    return ([], st.state.gasUsed, failed)

/-- A computation that cannot change the transition, as a method. -/
def liftExcept {α : Type} (x : Except TxError α) : TransitionM α :=
  match x with
  | .ok a => pure a
  | .error e => throw e

/-- The start of `TransitionDb`: a cross-shard deposit pre-fills its gas and
owes its start gas; a block transaction passes the nonce check, buys its gas
and owes its intrinsic gas. -/
def startGas : TransitionM Nat := do
  let st ← get
  if st.evm.isApplyXShard then do
    preFill
    pure st.evm.xShardGasUsedStart
  else do
    preCheck
    liftExcept (intrinsicGas st.data st.msg.toAddr.isNone st.msg.isCrossShard)

/-- The EVM step of `TransitionDb`: the creation, or the call, which a block
transaction makes after bumping its nonce and which the PoSW check may refuse. -/
def runEvm (vm : Interpreter) (contractCreation : Bool) :
    TransitionM (List UInt8 × Option VmError) := do
  let st ← get
  let msg := st.msg
  if contractCreation || st.evm.contractAddress.isSome then do
    let (s, ret, gasLeft, vmerr) :=
      vm.create st.evm st.state msg.fromAddr st.data st.gas st.value st.evm.contractAddress
    set { st with state := s, gas := gasLeft }
    pure (ret, vmerr)
  else do
    if !st.evm.isApplyXShard then
      modifyState fun s => s.setNonce msg.fromAddr (s.getNonce msg.fromAddr + 1)
    let st ← get
    if transferFailureByPoSWBalanceCheck st then do
      set { st with gas := 0 }
      pure ([], some .poswSenderNotAllowed)
    else do
      let (s, ret, gasLeft, vmerr) :=
        vm.call st.evm st.state msg.fromAddr (msg.toAddr.getD 0) st.data st.gas st.value
      set { st with state := s, gas := gasLeft }
      pure (ret, vmerr)

/-- The end of `TransitionDb`: an insufficient balance is the one EVM error
returned; otherwise the refund, the fee and the result. -/
def finishTransition (ret : List UInt8) (vmerr : Option VmError) :
    TransitionM (List UInt8 × Nat × Bool) :=
  if vmerr = some .insufficientBalance then throw (.vm .insufficientBalance)
  else do
    refundGas vmerr
    let st ← get
    chargeFee st.gasUsed
    let st ← get
    if vmerr = some .poswSenderNotAllowed then return ([], st.gasUsed, true)
    else return (ret, st.gasUsed, vmerr.isSome)

/-- `TransitionDb`: the whole transition of one message. -/
def transitionDb (vm : Interpreter) : TransitionM (List UInt8 × Nat × Bool) := do
  let st ← get
  let msg := st.msg
  let gas ← startGas
  useGas gas
  if msg.isCrossShard then do
    modifyState fun s => s.setNonce msg.fromAddr (s.getNonce msg.fromAddr + 1)
    addCrossShardTxDeposit vm gas
  else do
    let (ret, vmerr) ← runEvm vm msg.toAddr.isNone
    finishTransition ret vmerr

/-- `ApplyMessage`: run the transition from a fresh `StateTransition`. -/
def applyMessage (vm : Interpreter) (evm : EVM) (msg : Message) (gp : Nat) (state : StateDB) :
    Except TxError (List UInt8 × Nat × Bool) × StateTransition :=
  (transitionDb vm).run.run (newStateTransition evm msg gp state)

section Spec

open ExceptState

theorem intrinsicGas_error {data : List UInt8} {contractCreation isCrossShard : Bool} {e : TxError}
    (h : intrinsicGas data contractCreation isCrossShard = .error e) : e = .vm .outOfGas := by
  simp only [intrinsicGas, bind, Except.bind, pure, Except.pure, throw, throwThe,
    MonadExceptOf.throw] at h
  repeat' split at h
  all_goals
    cases h
    try rfl

theorem exec_liftExcept {α : Type} (x : Except TxError α) (st : StateTransition) :
    exec (liftExcept x) st = (x, st) := by
  cases x <;> rfl

theorem exec_useGas (n : Nat) (st : StateTransition) :
    exec (useGas n) st =
      if st.gas < n then (.error (.vm .outOfGas), st) else (.ok (), { st with gas := st.gas - n }) := by
  by_cases h : st.gas < n
  · simp [useGas, exec_bind, h]
  · simp [useGas, exec_bind, h]

theorem useGas_ok {n : Nat} {st st' : StateTransition} {u : Unit}
    (h : exec (useGas n) st = (.ok u, st')) : n ≤ st.gas ∧ st' = { st with gas := st.gas - n } := by
  rw [exec_useGas] at h
  split_ifs at h with hlt
  · exact absurd (Prod.mk.inj h).1 (by simp)
  · exact ⟨by omega, (Prod.mk.inj h).2.symm⟩

theorem useGas_error {n : Nat} {st st' : StateTransition} {e : TxError}
    (h : exec (useGas n) st = (.error e, st')) : e = .vm .outOfGas ∧ st' = st := by
  rw [exec_useGas] at h
  split_ifs at h with hlt
  · exact ⟨(Except.error.inj (Prod.mk.inj h).1).symm, (Prod.mk.inj h).2.symm⟩
  · exact absurd (Prod.mk.inj h).1 (by simp)

theorem exec_buyGas (st : StateTransition) :
    exec buyGas st =
      if st.state.getBalance st.msg.fromAddr st.evm.gasTokenID < st.msg.gasLimit * st.gasPrice then
        (.error .insufficientBalanceForGas, st)
      else if st.gp < st.msg.gasLimit then (.error .gasLimitReached, st)
      else
        (.ok (),
          { st with
            gp := st.gp - st.msg.gasLimit, gas := st.gas + st.msg.gasLimit,
            initialGas := st.msg.gasLimit,
            state := st.state.subBalance st.msg.fromAddr (st.msg.gasLimit * st.gasPrice)
              st.evm.gasTokenID }) := by
  by_cases hb : st.state.getBalance st.msg.fromAddr st.evm.gasTokenID < st.msg.gasLimit * st.gasPrice
  · simp [buyGas, exec_bind, hb]
  · by_cases hg : st.gp < st.msg.gasLimit
    · simp [buyGas, exec_bind, hb, hg]
    · simp [buyGas, exec_bind, hb, hg]

theorem exec_preCheck (st : StateTransition) :
    exec preCheck st =
      if st.msg.checkNonce ∧ st.state.getNonce st.msg.fromAddr < st.msg.nonce then
        (.error .nonceTooHigh, st)
      else if st.msg.checkNonce ∧ st.state.getNonce st.msg.fromAddr > st.msg.nonce then
        (.error .nonceTooLow, st)
      else exec buyGas st := by
  by_cases hc : st.msg.checkNonce
  · by_cases hh : st.state.getNonce st.msg.fromAddr < st.msg.nonce
    · simp [preCheck, exec_bind, hc, hh]
    · by_cases hl : st.state.getNonce st.msg.fromAddr > st.msg.nonce
      · simp [preCheck, exec_bind, hc, hh, hl]
      · simp [preCheck, exec_bind, hc, hh, hl]
  · simp [preCheck, exec_bind, hc]

/-- The checks before the purchase of gas change nothing when they fail. -/
theorem preCheck_error {st st' : StateTransition} {e : TxError}
    (h : exec preCheck st = (.error e, st')) : st' = st := by
  rw [exec_preCheck, exec_buyGas] at h
  split_ifs at h <;> simp_all

theorem preCheck_ok {st st' : StateTransition} {u : Unit}
    (h : exec preCheck st = (.ok u, st')) :
    st.msg.gasLimit ≤ st.gp ∧
      st' = { st with
        gp := st.gp - st.msg.gasLimit, gas := st.gas + st.msg.gasLimit,
        initialGas := st.msg.gasLimit,
        state := st.state.subBalance st.msg.fromAddr (st.msg.gasLimit * st.gasPrice)
          st.evm.gasTokenID } := by
  rw [exec_preCheck, exec_buyGas] at h
  split_ifs at h with h1 h2 h3 h4
  · simp at h
  · simp at h
  · simp at h
  · simp at h
  · exact ⟨by omega, (Prod.mk.inj h).2.symm⟩

theorem exec_modifyState (f : StateDB → StateDB) (st : StateTransition) :
    exec (modifyState f) st = (.ok (), { st with state := f st.state }) := rfl

theorem exec_preFill (st : StateTransition) :
    exec preFill st =
      (.ok (), { st with gas := (st.gas + st.msg.gasLimit + st.evm.xShardGasUsedStart) % 2 ^ 64,
                         initialGas := (st.gas + st.msg.gasLimit + st.evm.xShardGasUsedStart) % 2 ^ 64 }) :=
  rfl

theorem exec_refundGas (vmerr : Option VmError) (st : StateTransition) :
    exec (refundGas vmerr) st =
      let gas := st.gas + if vmerr = none then min (st.gasUsed / 2) st.state.refund else 0
      (.ok (), { st with gas := gas, gp := st.gp + gas,
                         state := (st.state.subRefund st.state.refund).addBalance st.msg.fromAddr
                           (gas * st.gasPrice) st.msg.gasTokenID }) := rfl

theorem exec_chargeFee (gasUsed : Nat) (st : StateTransition) :
    exec (chargeFee gasUsed) st =
      let cfg := st.state.quarkChainConfig
      let fee : Int := gasUsed * st.gasPrice
      let rateFee : Int := fee * cfg.localFeeRate.num / cfg.localFeeRate.den
      let used := if st.state.timeStamp ≥ cfg.enableEvmTimeStamp then gasUsed else st.gasUsed
      (.ok (), { st with
        state := ((st.state.addBalance st.evm.coinbase rateFee st.msg.gasTokenID).addBlockFee
          (SortedMap.empty.insert st.msg.gasTokenID rateFee)).addGasUsed used }) := rfl

theorem chargeFee_noThrow (gasUsed : Nat) : NoThrow (chargeFee gasUsed) :=
  fun st => ⟨(), by rw [exec_chargeFee]⟩


theorem startGas_ok {st st' : StateTransition} {g : Nat} (h : exec startGas st = (.ok g, st')) :
    (st.evm.isApplyXShard = true ∧ g = st.evm.xShardGasUsedStart ∧ st' = (exec preFill st).2) ∨
      (st.evm.isApplyXShard = false ∧ exec preCheck st = (.ok (), st') ∧
        intrinsicGas st.data st.msg.toAddr.isNone st.msg.isCrossShard = .ok g) := by
  cases hx : st.evm.isApplyXShard with
  | true =>
    simp only [startGas, exec_get_bind, hx, if_true] at h
    rw [exec_bind_of_ok (exec_preFill st), exec_pure, Prod.mk.injEq, Except.ok.injEq] at h
    obtain ⟨rfl, rfl⟩ := h
    exact Or.inl ⟨rfl, rfl, rfl⟩
  | false =>
    simp only [startGas, exec_get_bind, hx, Bool.false_eq_true, if_false] at h
    obtain ⟨u, st₁, hpre, hig⟩ := exec_bind_eq_ok h
    rw [exec_liftExcept, Prod.mk.injEq] at hig
    obtain ⟨hig, rfl⟩ := hig
    exact Or.inr ⟨rfl, hpre, hig⟩

theorem startGas_error {st st' : StateTransition} {e : TxError}
    (h : exec startGas st = (.error e, st')) :
    st.evm.isApplyXShard = false ∧
      (exec preCheck st = (.error e, st') ∨
        exec preCheck st = (.ok (), st') ∧
          intrinsicGas st.data st.msg.toAddr.isNone st.msg.isCrossShard = .error e) := by
  cases hx : st.evm.isApplyXShard with
  | true =>
    simp only [startGas, exec_get_bind, hx, if_true] at h
    rw [exec_bind_of_ok (exec_preFill st), exec_pure, Prod.mk.injEq] at h
    cases h.1
  | false =>
    simp only [startGas, exec_get_bind, hx, Bool.false_eq_true, if_false] at h
    refine ⟨rfl, ?_⟩
    rcases exec_bind_eq_error h with hpre | ⟨u, st₁, hpre, hig⟩
    · exact Or.inl hpre
    · rw [exec_liftExcept, Prod.mk.injEq] at hig
      obtain ⟨hig, rfl⟩ := hig
      exact Or.inr ⟨hpre, hig⟩

/-- The state after the nonce bump `runEvm` makes for a block transaction. -/
def StateTransition.bumpNonce (st : StateTransition) : StateTransition :=
  if st.evm.isApplyXShard then st
  else { st with state := st.state.setNonce st.msg.fromAddr (st.state.getNonce st.msg.fromAddr + 1) }

theorem exec_runEvm (vm : Interpreter) (contractCreation : Bool) (st : StateTransition) :
    exec (runEvm vm contractCreation) st =
      if (contractCreation || st.evm.contractAddress.isSome) = true then
        let r := vm.create st.evm st.state st.msg.fromAddr st.data st.gas st.value
          st.evm.contractAddress
        (.ok (r.2.1, r.2.2.2), { st with state := r.1, gas := r.2.2.1 })
      else if transferFailureByPoSWBalanceCheck st.bumpNonce then
        (.ok ([], some .poswSenderNotAllowed), { st.bumpNonce with gas := 0 })
      else
        let r := vm.call st.evm st.bumpNonce.state st.msg.fromAddr (st.msg.toAddr.getD 0) st.data
          st.gas st.value
        (.ok (r.2.1, r.2.2.2), { st.bumpNonce with state := r.1, gas := r.2.2.1 }) := by
  by_cases hc : (contractCreation || st.evm.contractAddress.isSome) = true
  · simp only [runEvm, exec_bind, exec_get, hc, if_true]
    rfl
  · cases hx : st.evm.isApplyXShard <;>
      simp only [runEvm, exec_bind, exec_get, hc, hx, if_false, StateTransition.bumpNonce,
        Bool.not_false, Bool.not_true, Bool.false_eq_true, if_true, modifyState, exec_modify] <;>
      split <;> rfl

theorem exec_finishTransition (ret : List UInt8) (vmerr : Option VmError) (st : StateTransition) :
    exec (finishTransition ret vmerr) st =
      if vmerr = some .insufficientBalance then (.error (.vm .insufficientBalance), st)
      else
        let st₂ := (exec (chargeFee (exec (refundGas vmerr) st).2.gasUsed)
          (exec (refundGas vmerr) st).2).2
        (.ok (if vmerr = some .poswSenderNotAllowed then ([], st₂.gasUsed, true)
          else (ret, st₂.gasUsed, vmerr.isSome)), st₂) := by
  by_cases hi : vmerr = some .insufficientBalance
  · simp only [finishTransition, hi, if_true, exec_throw]
  · simp only [finishTransition, hi, if_false, exec_bind, exec_refundGas, exec_get,
      exec_chargeFee]
    split <;> rfl

theorem finishTransition_error {ret : List UInt8} {vmerr : Option VmError}
    {st st' : StateTransition} {e : TxError} (h : exec (finishTransition ret vmerr) st = (.error e, st')) :
    vmerr = some .insufficientBalance ∧ e = .vm .insufficientBalance ∧ st' = st := by
  rw [exec_finishTransition] at h
  by_cases hi : vmerr = some .insufficientBalance
  · rw [if_pos hi] at h
    exact ⟨hi, (Except.error.inj (Prod.mk.inj h).1).symm, (Prod.mk.inj h).2.symm⟩
  · rw [if_neg hi] at h
    exact absurd (Prod.mk.inj h).1 (by simp)

/-- What a successful `TransitionDb` went through: the start gas, the intrinsic
gas drawn from it, then the cross-shard deposit or the EVM step and the end. -/
theorem transitionDb_ok {vm : Interpreter} {st st' : StateTransition}
    {r : List UInt8 × Nat × Bool} (h : exec (transitionDb vm) st = (.ok r, st')) :
    ∃ g st₁, exec startGas st = (.ok g, st₁) ∧ g ≤ st₁.gas ∧
      ((st.msg.isCrossShard = true ∧
          exec (addCrossShardTxDeposit vm g)
            { st₁ with gas := st₁.gas - g,
                       state := st₁.state.setNonce st.msg.fromAddr
                         (st₁.state.getNonce st.msg.fromAddr + 1) } = (.ok r, st')) ∨
        (st.msg.isCrossShard = false ∧ ∃ ret vmerr st₃,
          exec (runEvm vm st.msg.toAddr.isNone) { st₁ with gas := st₁.gas - g } =
            (.ok (ret, vmerr), st₃) ∧
          exec (finishTransition ret vmerr) st₃ = (.ok r, st'))) := by
  simp only [transitionDb, exec_get_bind] at h
  obtain ⟨g, st₁, hstart, h⟩ := exec_bind_eq_ok h
  obtain ⟨u, st₂, hgas, h⟩ := exec_bind_eq_ok h
  obtain ⟨hle, rfl⟩ := useGas_ok hgas
  refine ⟨g, st₁, hstart, hle, ?_⟩
  cases hxs : st.msg.isCrossShard with
  | true =>
    simp only [hxs, if_true, exec_bind, exec_modifyState] at h
    exact Or.inl ⟨rfl, h⟩
  | false =>
    simp only [hxs, Bool.false_eq_true, if_false] at h
    obtain ⟨⟨ret, vmerr⟩, st₃, hevm, h⟩ := exec_bind_eq_ok h
    exact Or.inr ⟨rfl, ret, vmerr, st₃, hevm, h⟩

theorem reserveCrossShardDeposit_noThrow (vm : Interpreter) (g : Nat) :
    NoThrow (reserveCrossShardDeposit vm g) := by
  intro st
  simp only [reserveCrossShardDeposit, exec_get_bind]
  split
  · exact ⟨_, rfl⟩
  · split <;> exact ⟨_, rfl⟩

/-- `AddCrossShardTxDeposit` fails only on its first check, before any change. -/
theorem addCrossShardTxDeposit_error (vm : Interpreter) (g : Nat) {st st' : StateTransition}
    {e : TxError} (h : exec (addCrossShardTxDeposit vm g) st = (.error e, st')) :
    e = .vm .insufficientBalance ∧ st' = st := by
  by_cases hb : st.state.getBalance st.msg.fromAddr st.msg.transferTokenID < st.value
  · simp only [addCrossShardTxDeposit, exec_get_bind, hb, if_true, exec_throw] at h
    exact ⟨(Except.error.inj (Prod.mk.inj h).1).symm, (Prod.mk.inj h).2.symm⟩
  · -- past the balance check nothing can throw
    simp only [addCrossShardTxDeposit, exec_get_bind, hb, if_false] at h
    refine absurd h (NoThrow.exec_ne_error ?_ _ _ _)
    exact noThrow_bind (reserveCrossShardDeposit_noThrow vm g) fun _ =>
      noThrow_bind noThrow_get fun _ => noThrow_bind (noThrow_modify _) fun _ =>
        noThrow_bind (chargeFee_noThrow _) fun _ => noThrow_bind noThrow_get fun _ =>
          noThrow_pure _

/-- What a failed `TransitionDb` of a block transaction leaves: either the
checks before the purchase of gas failed and nothing changed, or the gas was
bought and the transition stopped on the intrinsic gas or on a value transfer
the sender cannot pay, possibly after the nonce was bumped. -/
theorem transitionDb_error (vm : Interpreter) (hvm : vm.KeepsStateOnInsufficientBalance)
    {st st' : StateTransition} {e : TxError} (hx : st.evm.isApplyXShard = false)
    (h : exec (transitionDb vm) st = (.error e, st')) :
    exec preCheck st = (.error e, st') ∨
      st.msg.gasLimit ≤ st.gp ∧ st'.gp = st.gp - st.msg.gasLimit ∧
        ((e = .vm .outOfGas ∧
            st'.state = st.state.subBalance st.msg.fromAddr (st.msg.gasLimit * st.gasPrice)
              st.evm.gasTokenID) ∨
          (e = .vm .insufficientBalance ∧
            (st'.state = st.state.subBalance st.msg.fromAddr (st.msg.gasLimit * st.gasPrice)
                st.evm.gasTokenID ∨
              st'.state = (st.state.subBalance st.msg.fromAddr (st.msg.gasLimit * st.gasPrice)
                st.evm.gasTokenID).setNonce st.msg.fromAddr (st.state.getNonce st.msg.fromAddr + 1)))) := by
  simp only [transitionDb, exec_get_bind] at h
  rcases exec_bind_eq_error h with hstart | ⟨g, st₁, hstart, h⟩
  · rcases (startGas_error hstart).2 with hpre | ⟨hpre, hig⟩
    · exact Or.inl hpre
    · obtain ⟨hgp, rfl⟩ := preCheck_ok hpre
      exact Or.inr ⟨hgp, rfl, Or.inl ⟨intrinsicGas_error hig, rfl⟩⟩
  · rcases startGas_ok hstart with ⟨hx', -⟩ | ⟨-, hpre, -⟩
    · rw [hx] at hx'
      cases hx'
    obtain ⟨hgp, rfl⟩ := preCheck_ok hpre
    right
    refine ⟨hgp, ?_⟩
    rcases exec_bind_eq_error h with hgas | ⟨u, st₂, hgas, h⟩
    · obtain ⟨rfl, rfl⟩ := useGas_error hgas
      exact ⟨rfl, Or.inl ⟨rfl, rfl⟩⟩
    obtain ⟨-, rfl⟩ := useGas_ok hgas
    cases hxs : st.msg.isCrossShard with
    | true =>
      simp only [hxs, if_true, exec_bind, exec_modifyState] at h
      obtain ⟨rfl, rfl⟩ := addCrossShardTxDeposit_error vm g h
      exact ⟨rfl, Or.inr ⟨rfl, Or.inr (by simp)⟩⟩
    | false =>
      simp only [hxs, Bool.false_eq_true, if_false] at h
      rcases exec_bind_eq_error h with hevm | ⟨⟨ret, vmerr⟩, st₃, hevm, h⟩
      · rw [exec_runEvm] at hevm
        split_ifs at hevm <;> cases hevm
      obtain ⟨rfl, rfl, rfl⟩ := finishTransition_error h
      rw [exec_runEvm] at hevm
      -- the EVM reported the insufficient balance, so it was not the PoSW refusal
      split_ifs at hevm with hc hp
      · obtain ⟨hr, rfl⟩ := Prod.mk.inj hevm
        have hkeep := hvm.2 _ _ _ _ _ _ _ (congrArg Prod.snd (Except.ok.inj hr))
        exact ⟨rfl, Or.inr ⟨rfl, Or.inl hkeep⟩⟩
      · simp at hevm
      · simp only [StateTransition.bumpNonce, hx, Bool.false_eq_true, if_false] at hevm
        obtain ⟨hr, rfl⟩ := Prod.mk.inj hevm
        have hkeep := hvm.1 _ _ _ _ _ _ _ (congrArg Prod.snd (Except.ok.inj hr))
        refine ⟨rfl, Or.inr ⟨rfl, Or.inr ?_⟩⟩
        rw [hkeep]
        simp

/-- `ApplyMessage` outside cross-shard deposits: a failure either changed
nothing or comes after the purchase of gas. -/
theorem applyMessage_error (vm : Interpreter) (hvm : vm.KeepsStateOnInsufficientBalance)
    (evm : EVM) (msg : Message) (gp : Nat) (state : StateDB) {e : TxError}
    (hx : evm.isApplyXShard = false) (h : (applyMessage vm evm msg gp state).1 = .error e) :
    ((applyMessage vm evm msg gp state).2.state = state ∧
        (applyMessage vm evm msg gp state).2.gp = gp) ∨
      msg.gasLimit ≤ gp ∧ (applyMessage vm evm msg gp state).2.gp = gp - msg.gasLimit ∧
        ((e = .vm .outOfGas ∧
            (applyMessage vm evm msg gp state).2.state =
              state.subBalance msg.fromAddr (msg.gasLimit * msg.gasPrice) evm.gasTokenID) ∨
          (e = .vm .insufficientBalance ∧
            ((applyMessage vm evm msg gp state).2.state =
                state.subBalance msg.fromAddr (msg.gasLimit * msg.gasPrice) evm.gasTokenID ∨
              (applyMessage vm evm msg gp state).2.state =
                (state.subBalance msg.fromAddr (msg.gasLimit * msg.gasPrice) evm.gasTokenID).setNonce
                  msg.fromAddr (state.getNonce msg.fromAddr + 1)))) := by
  have hex : exec (transitionDb vm) (newStateTransition evm msg gp state) =
      (.error e, (applyMessage vm evm msg gp state).2) := Prod.ext h rfl
  rcases transitionDb_error vm hvm hx hex with hpre | hbought
  · rw [preCheck_error hpre]
    exact Or.inl ⟨rfl, rfl⟩
  · exact Or.inr hbought

end Spec

end Core
