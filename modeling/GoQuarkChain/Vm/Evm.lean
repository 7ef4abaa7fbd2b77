import GoQuarkChain.Core.StateProcessor

/-!
# Call frames of the EVM

`EVM.Call`, `EVM.CallCode`, `EVM.DelegateCall`, `EVM.StaticCall` and the
creations `EVM.create` and `EVM.Create` of go-ethereum's `core/vm`, with
QuarkChain's changes: value moves in the transaction's transfer token, a
creation in any other token than the default one returns at once, and a frame
that received a non-default token into code that never read the token id is
reverted by `checkTokenIDQueried`.

The code itself runs through `run`, the interpreter loop or the precompile at
the code address, which is a parameter here, as are `StateDB.Exist`, the
precompile table and the hashing of `CreateAddress`. A `Runtime` carries what
the rest of the chain relies on: `run` leaves the block fields alone. A frame's
snapshot is the state it started from, so reverting returns that state. The
chain runs with Homestead, Byzantium and EIP-158 rules from block zero, and
`vmConfig.NoRecursion` and the tracer are off.
-/

namespace Vm

open State Core

/-- `params.CallCreateDepth`. -/
def callCreateDepth : Nat := 1024

/-- `params.CreateDataGas`, per byte of deployed code. -/
def createDataGas : Nat := 200

/-- `params.MaxCodeSize`. -/
def maxCodeSize : Nat := 24576

def errDepth : VmError := .other "max call depth exceeded"

def errContractAddressCollision : VmError := .other "contract address collision"

def errCodeStoreOutOfGas : VmError := .other "contract creation code storage out of gas"

def errMaxCodeSizeExceeded : VmError := .other "evm: max code size exceeded"

/-- `vm.Contract`: who called, whose account the code runs on, where the code
comes from, the code, the value sent with it, the gas left and whether the
code has read its transfer token id. -/
structure Contract where
  callerAddress : Recipient
  address : Recipient
  codeAddr : Recipient
  code : List UInt8
  value : Nat
  gas : Nat
  tokenIDQueried : Bool
deriving DecidableEq, Repr

/-- What `run` leaves: the state, the returned bytes, the frame's gas, its
`TokenIDQueried` flag, and the error. -/
structure RunResult where
  state : StateDB
  ret : List UInt8
  gas : Nat
  tokenIDQueried : Bool
  err : Option VmError

/-- What the frames take from outside this module: `run` at a call depth, in
read-only mode or not; `StateDB.Exist`; the precompile table; the hashing of
`CreateAddress`. Running code never changes the block's time or configuration. -/
structure Runtime where
  run : EVM → Nat → StateDB → Contract → List UInt8 → Bool → RunResult
  exist : StateDB → Recipient → Bool
  isPrecompile : Recipient → Bool
  createAddress : Recipient → Nat → Nat → Recipient
  run_sameBlock : ∀ (evm : EVM) (depth : Nat) (s : StateDB) (contract : Contract)
    (input : List UInt8) (readOnly : Bool), s.SameBlock (run evm depth s contract input readOnly).state

/-- `checkTokenIDQueried`: a successful frame that received a non-default token
into code that never read the token id is reverted. `contract.value.Uint64()`
keeps the low 64 bits of the value. -/
def checkTokenIDQueried (err : Option VmError) (contract : Contract)
    (transferTokenID defaultTokenID : Nat) : Option VmError :=
  if err = none ∧ contract.code.length ≠ 0 ∧ contract.tokenIDQueried = false ∧
      transferTokenID ≠ defaultTokenID ∧ contract.value % 2 ^ 64 ≠ 0 then
    some .executionReverted
  else err

/-- The end every call frame shares: `checkTokenIDQueried` on what `run` left,
and on an error the snapshot, with the gas left only if the code reverted. -/
def endFrame (evm : EVM) (snapshot : StateDB) (contract : Contract) (r : RunResult) :
    StateDB × List UInt8 × Nat × Option VmError :=
  let contract := { contract with gas := r.gas, tokenIDQueried := r.tokenIDQueried }
  match checkTokenIDQueried r.err contract evm.transferTokenID
      r.state.quarkChainConfig.defaultChainTokenID with
  | none => (r.state, r.ret, contract.gas, none)
  | some err => (snapshot, r.ret, if err = .executionReverted then contract.gas else 0, some err)

/-- `EVM.Call`: the depth and balance checks, the transfer of `value` to `addr`
in the transfer token, and the code at `addr` run on `addr`'s account. A call
without value to an absent account that is no precompile does nothing. -/
def EVM.call (rt : Runtime) (evm : EVM) (depth : Nat) (s : StateDB) (caller addr : Recipient)
    (input : List UInt8) (gas value : Nat) : StateDB × List UInt8 × Nat × Option VmError :=
  if depth > callCreateDepth then (s, [], gas, some errDepth)
  else if s.getBalance caller evm.transferTokenID < value then
    (s, [], gas, some .insufficientBalance)
  else if rt.exist s addr = false ∧ rt.isPrecompile addr = false ∧ value = 0 then
    (s, [], gas, none)
  else
    let snapshot := s
    let s := if rt.exist s addr then s else s.createAccount addr
    let s := (s.subBalance caller value evm.transferTokenID).addBalance addr value
      evm.transferTokenID
    let contract : Contract := ⟨caller, addr, addr, s.getCode addr, value, gas, false⟩
    endFrame evm snapshot contract (rt.run evm depth s contract input false)

/-- `EVM.CallCode`: the code at `addr` runs on the caller's own account, so no
value moves. -/
def EVM.callCode (rt : Runtime) (evm : EVM) (depth : Nat) (s : StateDB)
    (caller addr : Recipient) (input : List UInt8) (gas value : Nat) :
    StateDB × List UInt8 × Nat × Option VmError :=
  if depth > callCreateDepth then (s, [], gas, some errDepth)
  else if s.getBalance caller evm.transferTokenID < value then
    (s, [], gas, some .insufficientBalance)
  else
    let contract : Contract := ⟨caller, caller, addr, s.getCode addr, value, gas, false⟩
    endFrame evm s contract (rt.run evm depth s contract input false)

/-- `EVM.DelegateCall`: the code at `addr` runs in the `parent` frame's place,
with its caller and its value. -/
def EVM.delegateCall (rt : Runtime) (evm : EVM) (depth : Nat) (s : StateDB)
    (parent : Contract) (addr : Recipient) (input : List UInt8) (gas : Nat) :
    StateDB × List UInt8 × Nat × Option VmError :=
  if depth > callCreateDepth then (s, [], gas, some errDepth)
  else
    let contract : Contract :=
      ⟨parent.callerAddress, parent.address, addr, s.getCode addr, parent.value, gas, false⟩
    endFrame evm s contract (rt.run evm depth s contract input false)

/-- `EVM.StaticCall`: no value, read-only code, and a zero `AddBalance` that
only touches `addr`. -/
def EVM.staticCall (rt : Runtime) (evm : EVM) (depth : Nat) (s : StateDB)
    (caller addr : Recipient) (input : List UInt8) (gas : Nat) :
    StateDB × List UInt8 × Nat × Option VmError :=
  if depth > callCreateDepth then (s, [], gas, some errDepth)
  else
    let contract : Contract := ⟨caller, addr, addr, s.getCode addr, 0, gas, false⟩
    let touched := s.addBalance addr 0 s.quarkChainConfig.defaultChainTokenID
    endFrame evm s contract (rt.run evm depth touched contract input true)

/-- The end of `EVM.create`: `checkTokenIDQueried`, then the returned code is
stored at `CreateDataGas` a byte; on an error, or code over `MaxCodeSize`, the
snapshot, with the gas left only if the code reverted. -/
def storeCode (evm : EVM) (snapshot : StateDB) (address : Recipient) (contract : Contract)
    (r : RunResult) : StateDB × List UInt8 × Nat × Option VmError :=
  let contract := { contract with gas := r.gas, tokenIDQueried := r.tokenIDQueried }
  let err := checkTokenIDQueried r.err contract evm.transferTokenID
    r.state.quarkChainConfig.defaultChainTokenID
  let maxCodeSizeExceeded := decide (r.ret.length > maxCodeSize)
  let (stored, gasLeft, err) :=
    if err = none ∧ maxCodeSizeExceeded = false then
      if r.ret.length * createDataGas ≤ contract.gas then
        (r.state.setCode address r.ret, contract.gas - r.ret.length * createDataGas, none)
      else (r.state, contract.gas, some errCodeStoreOutOfGas)
    else (r.state, contract.gas, err)
  if maxCodeSizeExceeded = true ∨ err ≠ none then
    (snapshot, r.ret, if err = some .executionReverted then gasLeft else 0,
      if maxCodeSizeExceeded = true ∧ err = none then some errMaxCodeSizeExceeded else err)
  else (stored, r.ret, gasLeft, none)

/-- `EVM.create`: a creation in any other token than the default one returns
at once. Otherwise the depth and balance checks, the caller's nonce (except
for a cross-shard deposit), the collision check, and the init code run on a
fresh account at `address` that holds the value. -/
def EVM.create (rt : Runtime) (evm : EVM) (depth : Nat) (s : StateDB) (caller : Recipient)
    (code : List UInt8) (gas value : Nat) (address : Recipient) :
    StateDB × List UInt8 × Nat × Option VmError :=
  if evm.transferTokenID ≠ s.quarkChainConfig.defaultChainTokenID then (s, [], gas, none)
  else if depth > callCreateDepth then (s, [], gas, some errDepth)
  else if s.getBalance caller evm.transferTokenID < value then
    (s, [], gas, some .insufficientBalance)
  else
    let s := if evm.isApplyXShard then s else s.setNonce caller (s.getNonce caller + 1)
    if s.getNonce address ≠ 0 ∨ s.getCode address ≠ [] then
      (s, [], 0, some errContractAddressCollision)
    else
      let snapshot := s
      let s := (((s.createAccount address).setNonce address 1).subBalance caller value
        evm.transferTokenID).addBalance address value evm.transferTokenID
      let contract : Contract := ⟨caller, address, address, code, value, gas, false⟩
      storeCode evm snapshot address contract (rt.run evm depth s contract [] false)

/-- `EVM.Create` (capital, apart from `EVM.create`): at the given address, or
at `CreateAddress` of the caller, its nonce and the target full shard key,
which the transaction has set as the state's. -/
def EVM.Create (rt : Runtime) (evm : EVM) (depth : Nat) (s : StateDB) (caller : Recipient)
    (code : List UInt8) (gas value : Nat) (contractRecipient : Option Recipient) :
    StateDB × List UInt8 × Nat × Option VmError :=
  let contractAddr :=
    contractRecipient.getD (rt.createAddress caller s.fullShardKey (s.getNonce caller))
  EVM.create rt evm depth s caller code gas value contractAddr

/-- The EVM of a transaction: its frames at depth zero. -/
def Runtime.interpreter (rt : Runtime) : Interpreter where
  call evm s caller addr input gas value := EVM.call rt evm 0 s caller addr input gas value
  create evm s caller code gas value contractRecipient :=
    EVM.Create rt evm 0 s caller code gas value contractRecipient
  createAddress := rt.createAddress

section Frames

variable (rt : Runtime) (evm : EVM) (depth : Nat) (s : StateDB)

/-- A creation in another token than the default one returns at once: no
nonce, no account, no code, and all the gas back. -/
theorem EVM.Create_of_token_ne_default (caller : Recipient) (code : List UInt8) (gas value : Nat)
    (contractRecipient : Option Recipient)
    (htoken : evm.transferTokenID ≠ s.quarkChainConfig.defaultChainTokenID) :
    EVM.Create rt evm depth s caller code gas value contractRecipient = (s, [], gas, none) := by
  simp only [EVM.Create, EVM.create, if_pos htoken]

end Frames

section TokenTransferExample

/-- An interpreter that stops at once with all its gas and reads nothing, as
go-ethereum's does on empty code and on code that starts with `STOP`; the
examples run only such code. -/
def haltingRuntime : Runtime where
  run _ _ s contract _ _ := ⟨s, [], contract.gas, false, none⟩
  exist _ _ := true
  isPrecompile _ := false
  createAddress _ _ _ := 0
  run_sameBlock _ _ s _ _ _ := StateDB.SameBlock.refl s

/-- Tokens `0` (the default) and `1` are allowed. -/
def twoTokenConfig : Config.QuarkChainConfig := { sampleConfig with allowedTokenIDs := [0, 1] }

/-- Account `1` holds `2 ^ 64` of token `1`; account `2` is a contract whose
code is `STOP`. -/
def tokenState : StateDB :=
  { sampleState with
    accounts := fun a =>
      if a = 2 then ⟨fun _ => 0, 0, [0], fun _ => 0⟩
      else ⟨fun t => if t = 1 then 2 ^ 64 else 0, 0, [], fun _ => 0⟩,
    quarkChainConfig := twoTokenConfig }

/-- The EVM of a transaction that moves token `1`. -/
def tokenEvm : EVM :=
  { coinbase := 0, gasTokenID := 0, transferTokenID := 1, isApplyXShard := false,
    xShardGasUsedStart := 0, contractAddress := none }

/-- Account `1` sends `2 ^ 64` of token `1` to the contract, whose code never
reads its token id: `Uint64()` of the value is zero, so the call succeeds and
the contract keeps the tokens. -/
theorem call_two_pow_64_unqueried_kept :
    tokenEvm.transferTokenID ≠ tokenState.quarkChainConfig.defaultChainTokenID ∧
      tokenState.getCode 2 ≠ [] ∧
      (EVM.call haltingRuntime tokenEvm 0 tokenState 1 2 [] 2300 (2 ^ 64)).2.2.2 = none ∧
      (EVM.call haltingRuntime tokenEvm 0 tokenState 1 2 [] 2300 (2 ^ 64)).1.getBalance 2 1 =
        2 ^ 64 ∧
      (EVM.call haltingRuntime tokenEvm 0 tokenState 1 2 [] 2300 (2 ^ 64)).1.getBalance 1 1 = 0 := by
  decide

end TokenTransferExample

end Vm
