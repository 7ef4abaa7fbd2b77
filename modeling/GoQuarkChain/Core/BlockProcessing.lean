import GoQuarkChain.Core.ValidateTx
import GoQuarkChain.Core.XShardTxCursor

/-!
# Running a minor block

`runBlock` replays a block on its parent's state. First come the cross-shard
deposits the cursor hands out (`RunCrossShardTxWithCursor`, each applied by
`ApplyCrossShardDeposit`), until the cursor is exhausted or the block's
cross-shard gas is used up. Then `Process` checks each transaction with
`validateTx` and applies it, and any error rejects the block. Last, the
coinbase reward is paid. `ValidateState` compares the outcome with the fields
the block carries.

The state database is a function from a block hash to the state after that
block, and the state root is a parameter (the trie hashing of go-ethereum).
Receipt logs are not modelled, so the bloom is not compared; the receipt hash
is kept as the receipt list it commits to. Loops over deposits are bounded by
an explicit `fuel`.
-/

namespace Core

open State

/-- The Go error text of a transition error. -/
def TxError.message : TxError → String
  | .nonceTooHigh => "nonce too high"
  | .nonceTooLow => "nonce too low"
  | .insufficientBalanceForGas => "insufficient balance to pay for gas"
  | .gasLimitReached => "gas limit reached"
  | .vm .outOfGas => "out of gas"
  | .vm .insufficientBalance => "insufficient balance for transfer"
  | .vm .poswSenderNotAllowed => "sender not allowed due to PoSW"
  | .vm .executionReverted => "evm: execution reverted"
  | .vm (.other msg) => msg
  | .invalidSender => "invalid sender"

/-- A minor block as block processing sees it: the header the chain keeps, the
header fields the state reads, the transactions, and the fields `Finalize`
sets (the state root, the receipts, the gas used, the cross-shard gas used,
the coinbase amount and the cursor). -/
structure FullMinorBlock where
  header : MinorBlockHeader
  time : Nat
  coinbase : Address
  gasLimit : Nat
  xShardGasLimit : Nat
  transactions : List EvmTransaction
  root : Hash
  receipts : List Receipt
  gasUsed : Nat
  xShardGasUsed : Nat
  coinbaseAmount : SortedMap Nat Int
  xShardTxCursorInfo : XShardTxCursorInfo

/-- `Finalize`: the receipts, the state root, the gas used, the cross-shard gas
used, the coinbase amount and the cursor. -/
def FullMinorBlock.finalize (b : FullMinorBlock) (receipts : List Receipt) (root : Hash)
    (gasUsed xShardGasUsed : Nat) (coinbaseAmount : SortedMap Nat Int)
    (xShardTxCursorInfo : XShardTxCursorInfo) : FullMinorBlock :=
  { b with receipts := receipts, root := root, gasUsed := gasUsed, xShardGasUsed := xShardGasUsed,
           coinbaseAmount := coinbaseAmount, xShardTxCursorInfo := xShardTxCursorInfo }

/-- The shard's `CoinbaseAmount` and `EpochInterval`, and the cluster's
`BlockRewardDecayFactor`. -/
structure CoinbaseConfig where
  coinbaseAmount : Nat
  epochInterval : Nat
  epochInterval_pos : 0 < epochInterval
  blockRewardDecayFactor : ℚ

/-- `powerBigInt`: the loop squares `data` `p - 1` times. -/
def powerBigInt (data : Nat) : Nat → Nat
  | 0 => 1
  | p + 1 => Nat.iterate (fun t => t * t) p data

/-- Squaring `p` times raises to the power `2 ^ p`. -/
theorem powerBigInt_succ (x p : Nat) : powerBigInt x (p + 1) = x ^ 2 ^ p := by
  induction p with
  | zero => simp [powerBigInt]
  | succ p ih =>
    have hsquare : powerBigInt x (p + 2) = powerBigInt x (p + 1) * powerBigInt x (p + 1) :=
      Function.iterate_succ_apply' _ _ _
    rw [hsquare, ih, ← pow_add, ← two_mul, ← pow_succ']

/-- `getCoinbaseAmount`: the reward of a block at `height`, in the default token. -/
def getCoinbaseAmount (cfg : CoinbaseConfig) (q : Config.QuarkChainConfig) (height : Nat) :
    SortedMap Nat Int :=
  let epoch := height / cfg.epochInterval
  let decayNumerator := powerBigInt cfg.blockRewardDecayFactor.num.toNat epoch
  let decayDenominator := powerBigInt cfg.blockRewardDecayFactor.den epoch
  let coinbaseAmount :=
    cfg.coinbaseAmount * q.localFeeRate.num.toNat * decayNumerator / q.localFeeRate.den /
      decayDenominator
  SortedMap.empty.insert q.defaultChainTokenID (coinbaseAmount : Int)

/-- Pay every token of the coinbase amount to the coinbase. -/
def addCoinbaseAmount (s : StateDB) (coinbase : Recipient) (amount : SortedMap Nat Int) :
    StateDB :=
  amount.entries.foldl (fun s e => s.addBalance coinbase e.2 e.1) s

/-- `ApplyCrossShardDeposit`: the receipt (none before the EVM is enabled), the
state and the block's gas counter. -/
def applyCrossShardDeposit (vm : Interpreter) (coinbase : Recipient) (evmState : StateDB)
    (tx : CrossShardTransactionDeposit) (usedGas : Nat) (checkIsFromRootChain : Bool) :
    Except TxError (Option Receipt × StateDB × Nat) :=
  let gasUsedStart :=
    if checkIsFromRootChain then (if tx.isFromRootChain then 0 else gtxxShardCost)
    else (if tx.gasPrice = 0 then 0 else gtxxShardCost)
  let q := evmState.quarkChainConfig
  if evmState.timeStamp < q.enableEvmTimeStamp then
    let s := (evmState.addBalance tx.toAddr.recipient tx.value tx.transferTokenID).addGasUsed
      gasUsedStart
    let xShardFee : Int := tx.gasPrice * gtxxShardCost * q.localFeeRate.num / q.localFeeRate.den
    let s := (s.addBlockFee (SortedMap.empty.insert tx.gasTokenID xShardFee)).addBalance
      s.blockCoinbase xShardFee tx.gasTokenID
    .ok (none, s, usedGas + gasUsedStart)
  else
    let s := (evmState.setFullShardKey tx.toAddr.fullShardKey).addBalance tx.fromAddr.recipient
      tx.value tx.transferTokenID
    let msg : Message :=
      { fromAddr := tx.fromAddr.recipient, toAddr := some tx.toAddr.recipient, nonce := 0,
        amount := tx.value, gasLimit := tx.gasRemained % 2 ^ 64, gasPrice := tx.gasPrice,
        data := tx.messageData, checkNonce := false, isCrossShard := false,
        fromFullShardKey := tx.fromAddr.fullShardKey, toFullShardKey := tx.toAddr.fullShardKey,
        txHash := 0, transferTokenID := tx.transferTokenID, gasTokenID := tx.gasTokenID }
    let evm : EVM :=
      { coinbase := coinbase, gasTokenID := tx.gasTokenID, transferTokenID := tx.transferTokenID,
        isApplyXShard := true, xShardGasUsedStart := gasUsedStart,
        contractAddress := if tx.createContract then some tx.toAddr.recipient else none }
    match applyMessage vm evm msg s.gasLimit s with
    | (.error e, _) => .error e
    | (.ok (_, gas, fail), st) =>
      let usedGas := usedGas + gas
      if st.state.timeStamp ≥ q.enableEvmTimeStamp then
        .ok (some { failed := fail, cumulativeGasUsed := usedGas, txHash := tx.txHash,
                    gasUsed := gas,
                    contractAddress := if tx.createContract && !fail then tx.toAddr.recipient else 0,
                    contractFullShardKey := tx.toAddr.fullShardKey },
          st.state, usedGas)
      else .ok (none, st.state, usedGas)

/-- The loop of `RunCrossShardTxWithCursor`: the deposits applied, their
receipts, the cursor and the state. -/
def applyDeposits (vm : Interpreter) (m : MinorBlockChain) (coinbase : Recipient)
    (xShardGasLimit : Nat) :
    Nat → XShardTxCursor → StateDB → Nat →
      Except Failure (List CrossShardTransactionDeposit × List Receipt × XShardTxCursor × StateDB)
  | 0, _, _, _ => .error .outOfFuel
  | fuel + 1, cursor, evmState, usedGas => do
    let (xShardDepositTx, cursor) ← XShardTxCursor.getNextTx m cursor
    match xShardDepositTx with
    | none => return ([], [], cursor, evmState)
    | some tx =>
      let checkIsFromRootChain :=
        decide ((cursor.rBlock.map (·.header.number)).getD 0 ≥
          m.quarkChainConfig.xShardGasDDOSFixRootHeight)
      let (receipt, evmState, usedGas) ←
        (applyCrossShardDeposit vm coinbase evmState tx usedGas checkIsFromRootChain).mapError
          fun e => .error e.message
      let (txList, receipts, cursor, evmState) ←
        if evmState.gasUsed ≥ xShardGasLimit then pure ([], [], cursor, evmState)
        else applyDeposits vm m coinbase xShardGasLimit fuel cursor evmState usedGas
      return (tx :: txList, receipt.toList ++ receipts, cursor, evmState)

/-- `RunCrossShardTxWithCursor`: the deposits applied, where the cursor stopped,
the receipts and the state, whose cross-shard gas used is set. -/
def runCrossShardTxWithCursor (vm : Interpreter) (m : MinorBlockChain) (fuel : Nat)
    (evmState : StateDB) (mBlock : FullMinorBlock) :
    Except Failure
      (List CrossShardTransactionDeposit × XShardTxCursorInfo × List Receipt × StateDB) := do
  let some preMinorBlock := m.minorBlocks mBlock.header.parentHash
    | throw (.error "no pre block")
  let cursor ← XShardTxCursor.newXShardTxCursor m mBlock.header preMinorBlock.xShardTxCursorInfo
  let evmState := { evmState with quarkChainConfig := m.quarkChainConfig }
  let (txList, receipts, cursor, evmState) ←
    applyDeposits vm m mBlock.coinbase.recipient mBlock.xShardGasLimit fuel cursor evmState 0
  return (txList, cursor.getCursorInfo, receipts,
    { evmState with xShardReceiveGasUsed := evmState.gasUsed })

/-- `getEvmStateForNewBlock`: the parent's state, set up for the new block by
`setEvmStateWithHeader`. -/
def getEvmStateForNewBlock (stateAt : Hash → Option StateDB) (m : MinorBlockChain)
    (mBlock : FullMinorBlock) : Except Failure StateDB := do
  let some _ := m.minorBlocks mBlock.header.parentHash | throw errMinorBlockIsNil
  let some evmState := stateAt mBlock.header.parentHash | throw (.error "missing trie node")
  return { evmState with timeStamp := mBlock.time, blockCoinbase := mBlock.coinbase.recipient,
                         gasLimit := mBlock.gasLimit, quarkChainConfig := m.quarkChainConfig }

/-- The shrinking of the block's gas limit by the cross-shard gas left unused,
as `runBlock` and `CreateBlockToMine` both do it. -/
def adjustGasLimit (evmState : StateDB) (xShardGasLimit : Nat) : StateDB :=
  if evmState.gasUsed < xShardGasLimit then
    { evmState with gasLimit := evmState.gasLimit - (xShardGasLimit - evmState.gasUsed) }
  else evmState

/-- The transaction loop of `Process` in a block with the given coinbase and
cross-shard gas limit: receipts, gas counter, gas pool, state. -/
def processTransactions (vm : Interpreter) (sender : EvmTransaction → Option Recipient)
    (m : MinorBlockChain) (coinbase : Recipient) (xGas : Nat) :
    List EvmTransaction → List Receipt → Nat → Nat → StateDB →
      Except Failure (List Receipt × Nat × StateDB)
  | [], receipts, usedGas, _, statedb => .ok (receipts, usedGas, statedb)
  | tx :: txs, receipts, usedGas, gp, statedb => do
    let evmTx ← validateTx m sender tx statedb none none xGas
    let o := applyTransaction vm sender coinbase gp statedb evmTx usedGas
    match o.result with
    | .error e => throw (.error e.message)
    | .ok (_, receipt, _) =>
      processTransactions vm sender m coinbase xGas txs (receipts ++ [receipt]) o.usedGas o.gp
        o.state

/-- `StateProcessor.Process`: the receipts, the gas used and the state. -/
def process (vm : Interpreter) (sender : EvmTransaction → Option Recipient) (cfg : CoinbaseConfig)
    (m : MinorBlockChain) (block : FullMinorBlock) (statedb : StateDB) :
    Except Failure (List Receipt × Nat × StateDB) := do
  let statedb := { statedb with quarkChainConfig := m.quarkChainConfig,
                                blockCoinbase := block.coinbase.recipient,
                                gasLimit := block.gasLimit }
  let (receipts, usedGas, statedb) ←
    processTransactions vm sender m block.coinbase.recipient block.xShardGasLimit block.transactions
      [] 0 block.gasLimit statedb
  let coinbaseAmount := getCoinbaseAmount cfg m.quarkChainConfig block.header.number
  return (receipts, usedGas, addCoinbaseAmount statedb block.coinbase.recipient coinbaseAmount)

/-- `runBlock`: the state after the block, where its cursor stopped, its
receipts (transactions first, then deposits), the gas used by its transactions
and the deposits it applied. -/
def runBlock (vm : Interpreter) (sender : EvmTransaction → Option Recipient)
    (stateAt : Hash → Option StateDB) (cfg : CoinbaseConfig) (fuel : Nat) (m : MinorBlockChain)
    (block : FullMinorBlock) :
    Except Failure
      (StateDB × XShardTxCursorInfo × List Receipt × Nat × List CrossShardTransactionDeposit) := do
  let some _ := m.minorBlocks block.header.parentHash | throw errRootBlockIsNil
  let preEvmState ← getEvmStateForNewBlock stateAt m block
  let (xTxList, txCursorInfo, xShardReceipts, evmState) ←
    runCrossShardTxWithCursor vm m fuel preEvmState block
  let evmState := adjustGasLimit evmState block.xShardGasLimit
  let (receipts, usedGas, evmState) ← process vm sender cfg m block evmState
  return (evmState, txCursorInfo, receipts ++ xShardReceipts, usedGas, xTxList)

/-- `MinorBlockValidator.ValidateState`, in the source's order of checks. The
bloom is a function of the receipts' logs and is not compared here. -/
def validateState (intermediateRoot : StateDB → Hash) (cfg : CoinbaseConfig)
    (q : Config.QuarkChainConfig) (block : FullMinorBlock) (statedb : StateDB)
    (txCursorInfo : XShardTxCursorInfo) (receipts : List Receipt) : Except Failure Unit :=
  if block.gasUsed ≠ statedb.gasUsed then throw (.error "invalid gas used")
  else if txCursorInfo ≠ block.xShardTxCursorInfo then
    throw (.error "cross-hard transaction cursor info mismatches!")
  else if receipts ≠ block.receipts then throw (.error "invalid receipt root hash")
  else if statedb.gasUsed ≠ block.gasUsed then throw (.error "gas used not match")
  else
    let coinbaseAmount :=
      (Types.newTokenBalancesWithMap (getCoinbaseAmount cfg q block.header.number)).add
        statedb.blockFee
    if coinbaseAmount.balances ≠ block.coinbaseAmount then throw (.error "wrong coinbase amount")
    else if statedb.xShardReceiveGasUsed ≠ block.xShardGasUsed then
      throw (.error "xShardReceivedGasUsed not match")
    else if intermediateRoot statedb ≠ block.root then throw (.error "invalid merkle root")
    else pure ()

section Frame

variable (vm : Interpreter) (sender : EvmTransaction → Option Recipient)
  (stateAt : Hash → Option StateDB) (cfg : CoinbaseConfig) (fuel : Nat) (m : MinorBlockChain)

/-- `runBlock` reads none of the fields `Finalize` sets: a block replays the same
whatever its root, receipts, gas used, coinbase amount and cursor claim. -/
theorem runBlock_finalize (b : FullMinorBlock) (receipts : List Receipt) (root : Hash)
    (gasUsed xShardGasUsed : Nat) (coinbaseAmount : SortedMap Nat Int)
    (cursor : XShardTxCursorInfo) :
    runBlock vm sender stateAt cfg fuel m
        (b.finalize receipts root gasUsed xShardGasUsed coinbaseAmount cursor) =
      runBlock vm sender stateAt cfg fuel m b := rfl

/-- The checks of `validateState` before the state root do not read it: once
they pass for one root, the outcome for any other is the root comparison. -/
theorem validateState_of_root_checks {b : FullMinorBlock} {x : Hash} {q : Config.QuarkChainConfig}
    {statedb : StateDB} {txCursorInfo : XShardTxCursorInfo} {receipts : List Receipt}
    (intermediateRoot : StateDB → Hash)
    (h : validateState (fun _ => x) cfg q { b with root := x } statedb txCursorInfo receipts =
      .ok ()) :
    validateState intermediateRoot cfg q b statedb txCursorInfo receipts =
      if intermediateRoot statedb ≠ b.root then .error (.error "invalid merkle root")
      else .ok () := by
  simp only [validateState] at h ⊢
  -- the six checks before the root read the same fields of both blocks
  split_ifs at h ⊢ <;> simp_all

end Frame

end Core
