import GoQuarkChain.Core.BlockProcessing

/-!
# Building a block to mine

`CreateBlockToMine` starts a block on the current tip, applies the cross-shard
deposits exactly as `runBlock` does, then fills the block from the pool
(`addTransactionToBlock`): transactions come in price order, one account at a
time in nonce order, each one applied by `ApplyTransaction` straight on the
block's state. A transaction whose application fails is left out of the block,
but nothing restores the state it changed before failing. Last, the coinbase
reward is paid and `Finalize` records the state root, the receipts, the gas
used, the coinbase amount and the cursor.
-/

namespace Core

open State

/-- `types.TransactionsByPriceAndNonce`: the next transaction of each account,
highest price first, and the rest of each account's transactions in nonce
order. The heap is a list kept in price order; among equal prices the heap's
own order is not modelled. -/
structure TransactionsByPriceAndNonce where
  txs : List (Recipient × List EvmTransaction)
  heads : List EvmTransaction

namespace TransactionsByPriceAndNonce

/-- A head goes after the heads of the same or a higher price. -/
def insertHead (tx : EvmTransaction) : List EvmTransaction → List EvmTransaction
  | [] => [tx]
  | h :: hs => if h.price < tx.price then tx :: h :: hs else h :: insertHead tx hs

/-- `NewTransactionsByPriceAndNonce` over the pool's pending transactions of
each account. -/
def new (sender : EvmTransaction → Option Recipient) :
    List (Recipient × List EvmTransaction) → Except Failure TransactionsByPriceAndNonce
  | [] => .ok ⟨[], []⟩
  | (_, []) :: _ => .error (.panic "index out of range")
  | (_, tx :: accTxs) :: rest => do
    let some acc := sender tx | throw (.error "invalid sender")
    let t ← new sender rest
    return ⟨(acc, accTxs) :: t.txs, insertHead tx t.heads⟩

def peek (t : TransactionsByPriceAndNonce) : Option EvmTransaction := t.heads.head?

/-- `Shift`: the best head is replaced by the next transaction of its account. -/
def shift (sender : EvmTransaction → Option Recipient) (t : TransactionsByPriceAndNonce) :
    Except Failure TransactionsByPriceAndNonce :=
  match t.heads with
  | [] => .error (.panic "index out of range")
  | head :: heads =>
    match sender head with
    | none => .error (.error "invalid sender")
    | some acc =>
      match t.txs.lookup acc with
      | some (tx :: rest) =>
        .ok ⟨t.txs.map fun e => if e.1 = acc then (acc, rest) else e, insertHead tx heads⟩
      | _ => .ok ⟨t.txs, heads⟩

/-- `Pop`: the best head goes, with the rest of its account. -/
def pop (t : TransactionsByPriceAndNonce) : TransactionsByPriceAndNonce :=
  { t with heads := t.heads.tail }

end TransactionsByPriceAndNonce

/-- `ErrorTxBreak` and `ErrorTxContinue`. -/
inductive TxCheck where
  | txBreak
  | txContinue
deriving DecidableEq, Repr

/-- `checkTxBeforeApply`; `none` is a transaction that may be applied. -/
def checkTxBeforeApply (q : Config.QuarkChainConfig) (stateT : StateDB)
    (tx : Option EvmTransaction) (time : Nat) : Option TxCheck :=
  match tx with
  | none => some .txBreak
  | some tx =>
    if tx.gasLimit > stateT.gasLimit - stateT.gasUsed then some .txContinue
    else if tx.price < q.minMiningGasPrice then some .txContinue
    else if time < q.enableEvmTimeStamp ∧ (tx.recipient.isNone || tx.payload.length ≠ 0) then
      some .txContinue
    else none

open TransactionsByPriceAndNonce in
/-- The loop of `addTransactionToBlock`: the transactions put in the block, their
receipts and the state. Every failed application changes `stateT` all the
same. `fuel` bounds the iterations; each one removes a transaction. -/
def commitTransactions (vm : Interpreter) (sender : EvmTransaction → Option Recipient)
    (q : Config.QuarkChainConfig) (block : FullMinorBlock) :
    Nat → TransactionsByPriceAndNonce → Nat → Nat → StateDB → List Receipt →
      List EvmTransaction → Except Failure (List EvmTransaction × List Receipt × StateDB)
  | 0, _, _, _, _, _, _ => .error .outOfFuel
  | fuel + 1, txs, gp, usedGas, stateT, receipts, txsInBlock =>
    if stateT.gasUsed < stateT.gasLimit then
      match checkTxBeforeApply q stateT txs.peek block.time, txs.peek with
      | some .txBreak, _ | none, none => .ok (txsInBlock, receipts, stateT)
      | some .txContinue, _ =>
        commitTransactions vm sender q block fuel txs.pop gp usedGas stateT receipts txsInBlock
      | none, some tx =>
        let o := applyTransaction vm sender block.coinbase.recipient gp stateT tx usedGas
        let next (txs : TransactionsByPriceAndNonce) (receipts : List Receipt)
            (txsInBlock : List EvmTransaction) :=
          commitTransactions vm sender q block fuel txs o.gp o.usedGas o.state receipts txsInBlock
        match o.result with
        | .error .gasLimitReached | .error .nonceTooHigh => next txs.pop receipts txsInBlock
        | .ok (_, receipt, _) => do
          let txs ← (shift sender txs).mapError fun _ => .error "txs.Shift error"
          next txs (receipts ++ [receipt]) (txsInBlock ++ [tx])
        | .error _ => do
          let txs ← (shift sender txs).mapError fun _ => .error "txs.Shift error"
          next txs receipts txsInBlock
    else .ok (txsInBlock, receipts, stateT)

/-- `addTransactionToBlock`: the block with the transactions that went in, their
receipts and the state they leave. -/
def addTransactionToBlock (vm : Interpreter) (sender : EvmTransaction → Option Recipient)
    (q : Config.QuarkChainConfig) (fuel : Nat) (pending : List (Recipient × List EvmTransaction))
    (block : FullMinorBlock) (evmState : StateDB) :
    Except Failure (FullMinorBlock × List Receipt × StateDB) := do
  let txs ← TransactionsByPriceAndNonce.new sender pending
  let (txsInBlock, receipts, stateT) ←
    commitTransactions vm sender q block fuel txs block.gasLimit 0 evmState [] []
  return ({ block with transactions := txsInBlock }, receipts, stateT)

/-- `Address.AddressInBranch`: the same recipient, with the full shard key moved
into `branch`. -/
def addressInBranch (a : Address) (branch : Account.Branch) : Address :=
  let shardKey := a.fullShardKey &&& (2 ^ 16 - 1)
  let newShardKey := (shardKey &&& (2 ^ 32 - 1 - (branch.getShardSize - 1))) + branch.getShardID
  ⟨a.recipient, (branch.getChainID <<< 16 ||| newShardKey) % 2 ^ 32⟩

/-- What `CreateBlockToMine` has before `Finalize`: the block with its
transactions, the receipts, the state, the coinbase amount and the cursor. -/
structure BlockToMine where
  block : FullMinorBlock
  receipts : List Receipt
  state : StateDB
  coinbaseAmount : SortedMap Nat Int
  cursor : XShardTxCursorInfo

/-- `Finalize` of the prepared block, with the state root of its state. -/
def BlockToMine.finalize (p : BlockToMine) (intermediateRoot : StateDB → Hash) : FullMinorBlock :=
  p.block.finalize p.receipts (intermediateRoot p.state) p.state.gasUsed
    p.state.xShardReceiveGasUsed p.coinbaseAmount p.cursor

/-- `CreateBlockToMine` with every argument given, up to `Finalize`. `hash` is
the hash of the sealed block, which nothing below reads. -/
def prepareBlockToMine (vm : Interpreter) (sender : EvmTransaction → Option Recipient)
    (stateAt : Hash → Option StateDB) (cfg : CoinbaseConfig) (fuel : Nat) (m : MinorBlockChain)
    (pending : List (Recipient × List EvmTransaction)) (hash : Hash) (createTime : Nat)
    (address : Address) (gasLimit xShardGasLimit : Nat) (includeTx : Bool) :
    Except Failure BlockToMine := do
  let prevBlock := m.currentBlock
  let fullShardID ←
    (m.quarkChainConfig.getFullShardIdByFullShardKey address.fullShardKey).mapError .error
  let address := if fullShardID ≠ m.branch.value then addressInBranch address m.branch else address
  let block : FullMinorBlock :=
    { header := { hash := hash, number := prevBlock.header.number + 1,
                  parentHash := prevBlock.header.hash, branch := prevBlock.header.branch,
                  prevRootBlockHash := m.rootTip.hash },
      time := createTime, coinbase := address, gasLimit := gasLimit,
      xShardGasLimit := xShardGasLimit, transactions := [], root := emptyHash, receipts := [],
      gasUsed := 0, xShardGasUsed := 0, coinbaseAmount := SortedMap.empty,
      xShardTxCursorInfo := prevBlock.xShardTxCursorInfo }
  let evmState ← getEvmStateForNewBlock stateAt m block
  let ancestorRootBlock ← deref (m.getRootBlockByHash prevBlock.header.prevRootBlockHash)
  if !(← m.isSameRootChain m.rootTip ancestorRootBlock.header) then throw errNotSameRootChain
  let (_, txCursor, xShardReceipts, evmState) ←
    runCrossShardTxWithCursor vm m fuel evmState block
  let evmState := adjustGasLimit evmState xShardGasLimit
  let (block, receipts, evmState) ←
    if includeTx then addTransactionToBlock vm sender m.quarkChainConfig fuel pending block evmState
    else pure (block, [], evmState)
  let pureCoinbaseAmount := getCoinbaseAmount cfg m.quarkChainConfig block.header.number
  let evmState := addCoinbaseAmount evmState evmState.blockCoinbase pureCoinbaseAmount
  let coinbaseAmount := (Types.newTokenBalancesWithMap pureCoinbaseAmount).add evmState.blockFee
  return ⟨block, receipts ++ xShardReceipts, evmState, coinbaseAmount.balances, txCursor⟩

/-- `CreateBlockToMine`: the prepared block, finalized with its state root. -/
def createBlockToMine (vm : Interpreter) (sender : EvmTransaction → Option Recipient)
    (stateAt : Hash → Option StateDB) (cfg : CoinbaseConfig) (intermediateRoot : StateDB → Hash)
    (fuel : Nat) (m : MinorBlockChain) (pending : List (Recipient × List EvmTransaction))
    (hash : Hash) (createTime : Nat) (address : Address) (gasLimit xShardGasLimit : Nat)
    (includeTx : Bool) : Except Failure FullMinorBlock :=
  (prepareBlockToMine vm sender stateAt cfg fuel m pending hash createTime address gasLimit
    xShardGasLimit includeTx).map (·.finalize intermediateRoot)

section TwoTransfersExample

/-- A reward of `5` for every block of the first epoch. -/
def rewardConfig : CoinbaseConfig := ⟨5, 100, by decide, 1⟩

/-- The state database: `sampleState` after the genesis block. -/
def genesisStateAt (h : Hash) : Option StateDB :=
  if h = genesisMinor.header.hash then some sampleState else none

/-- Account `1` sends its one unit to account `2`, at gas price zero. -/
def firstTransfer : EvmTransaction :=
  { accountNonce := 0, price := 0, gasLimit := 21000, recipient := some 2, amount := 1,
    payload := [], networkId := 3, fromFullShardKey := 0, toFullShardKey := 0, gasTokenID := 0,
    transferTokenID := 0, fromShardSize := 1, toShardSize := 1, hash := 11 }

/-- The same transfer again, at the next nonce. Against the current state both
pass the pool's checks. -/
def secondTransfer : EvmTransaction := { firstTransfer with accountNonce := 1, hash := 12 }

def twoTransfers : List (Recipient × List EvmTransaction) := [(1, [firstTransfer, secondTransfer])]

/-- The miner applies both transfers on the block's state; the second fails on
the value transfer after bumping the sender's nonce, and is left out with the
bump kept. The validator replays the block, which holds the first transfer
only, and its state has the old nonce. `ValidateState` accepts the mined block
exactly when the state root does not tell the two states apart. -/
theorem createBlockToMine_rejected_by_validateState :
    ∃ c, initGenesisState ⟨1⟩ oneShardConfig 0 rfl 8 genesisRoot genesisMinor = .ok c ∧
      ∃ sMiner sValidator : StateDB, sMiner.getNonce 1 = 2 ∧ sValidator.getNonce 1 = 1 ∧
        ∀ intermediateRoot : StateDB → Hash,
          ∃ b, createBlockToMine transferInterpreter (fun _ => some 1) genesisStateAt rewardConfig
              intermediateRoot 8 c twoTransfers 101 1 ⟨0, 0⟩ 100000 50000 true = .ok b ∧
            b.transactions = [firstTransfer] ∧ b.root = intermediateRoot sMiner ∧
            ∃ r, runBlock transferInterpreter (fun _ => some 1) genesisStateAt rewardConfig 8 c b =
                .ok r ∧ r.1 = sValidator ∧
              validateState intermediateRoot rewardConfig oneShardConfig b r.1 r.2.1 r.2.2.1 =
                if intermediateRoot sValidator ≠ intermediateRoot sMiner then
                  .error (.error "invalid merkle root")
                else .ok () := by
  -- the whole run with every state root read as 0, evaluated by the kernel
  have run : (do
      let c ← initGenesisState ⟨1⟩ oneShardConfig 0 rfl 8 genesisRoot genesisMinor
      let p ← prepareBlockToMine transferInterpreter (fun _ => some 1) genesisStateAt rewardConfig
        8 c twoTransfers 101 1 ⟨0, 0⟩ 100000 50000 true
      let r ← runBlock transferInterpreter (fun _ => some 1) genesisStateAt rewardConfig 8 c
        p.block
      return (p.block.transactions, p.state.getNonce 1, r.1.getNonce 1,
        validateState (fun _ => 0) rewardConfig oneShardConfig (p.finalize fun _ => 0) r.1 r.2.1
          r.2.2.1)) =
      (.ok ([firstTransfer], 2, 1, .ok ()) : Except Failure _) := by
    decide +kernel
  obtain ⟨c, hc, e⟩ := Except.bind_eq_ok.mp run
  obtain ⟨p, hp, e⟩ := Except.bind_eq_ok.mp e
  obtain ⟨r, hr, e⟩ := Except.bind_eq_ok.mp e
  simp only [Except.pure_eq_ok, Except.ok.injEq, Prod.mk.injEq] at e
  obtain ⟨htx, hminer, hvalidator, hchecks⟩ := e
  refine ⟨c, hc, p.state, r.1, hminer, hvalidator, fun root =>
    ⟨p.finalize root, ?_, htx, rfl, r, ?_, rfl, validateState_of_root_checks rewardConfig root hchecks⟩⟩
  · simp only [createBlockToMine, hp, Except.map]
  · rw [BlockToMine.finalize, runBlock_finalize]
    exact hr

end TwoTransfersExample

end Core
