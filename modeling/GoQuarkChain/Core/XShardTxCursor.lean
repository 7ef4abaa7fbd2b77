import GoQuarkChain.Core.MinorBlockChain

/-!
# The cross-shard deposit cursor

A minor block applies the deposits sent to its shard in a fixed order: for each
root block, from the one after where its parent stopped up to its own previous
root block, first the root block's coinbase, then the cross-shard lists of the
neighbour minor blocks it confirms. The cursor walks that order and saves its
position as `(root height, minor index, deposit index)`: `(x, 0, 1)` is the
coinbase of root block `x`, `(x, y, z)` with `y > 0` the deposit `z` of the
`y`-th confirmed minor block, and `(x, 0, 0)` the point before root block `x`.

The chain is only read by the cursor, so every function takes it as an argument.
-/

namespace Core

open State

namespace MinorBlockChain

variable (m : MinorBlockChain)

/-- The walk of `GetRootBlockHeaderByHeight` down to `height`; `fuel` bounds the
steps. A missing parent makes the source's own `log.Crit` call dereference it. -/
def walkRootHeadersTo (height : Nat) : Nat → RootBlockHeader → Except Failure RootBlockHeader
  | 0, rHeader => .ok rHeader
  | fuel + 1, rHeader =>
    if height = rHeader.number then .ok rHeader
    else match m.getRootBlockHeaderByHash rHeader.parentHash with
      | none => .error nilDereference
      | some parent => walkRootHeadersTo height fuel parent

/-- `GetRootBlockHeaderByHeight`: the ancestor of root block `h` at `height`. -/
def getRootBlockHeaderByHeight (h : Hash) (height : Nat) :
    Except Failure (Option RootBlockHeader) :=
  match m.getRootBlockHeaderByHash h with
  | none => .ok none
  | some rHeader =>
    if height > rHeader.number then .ok none
    else some <$> m.walkRootHeadersTo height (rHeader.number - height) rHeader

/-- The deposit that pays a root block's coinbase, for this shard. -/
def coinbaseDeposit (rBlock : RootBlock) : CrossShardTransactionDeposit :=
  let genesisToken := m.quarkChainConfig.defaultChainTokenID
  let coinbaseAmount :=
    if m.branch.isInBranch rBlock.header.coinbase.fullShardKey then
      rBlock.header.coinbaseAmount.getTokenBalance genesisToken
    else 0
  { txHash := rBlock.header.hash, fromAddr := rBlock.header.coinbase,
    toAddr := rBlock.header.coinbase, value := coinbaseAmount.toNat, gasPrice := 0,
    gasRemained := 0, gasTokenID := genesisToken, transferTokenID := genesisToken,
    messageData := [], createContract := false, isFromRootChain := true }

/-- `getCurrentTx`, at root block `rBlock` and the given indices. -/
def getCurrentTx (rBlock : RootBlock) (mBlockIndex xShardDepositIndex : Nat)
    (xTxList : Option (List CrossShardTransactionDeposit)) :
    Except Failure (Option CrossShardTransactionDeposit) :=
  if mBlockIndex = 0 then
    if xShardDepositIndex ≠ 1 ∧ xShardDepositIndex ≠ 2 then
      .error (.error "shardDepositIndex should be 1 or 2")
    else if xShardDepositIndex = 1 then .ok (some (m.coinbaseDeposit rBlock))
    else .ok none
  else match xTxList with
    | none => .error nilDereference
    | some txList => .ok txList[xShardDepositIndex]?

theorem getCurrentTx_coinbase (r : RootBlock)
    (xTxList : Option (List CrossShardTransactionDeposit)) :
    m.getCurrentTx r 0 1 xTxList = .ok (some (m.coinbaseDeposit r)) := by
  simp [getCurrentTx]

theorem getCurrentTx_minor (r : RootBlock) (i z : Nat) (l : List CrossShardTransactionDeposit) :
    m.getCurrentTx r (i + 1) z (some l) = .ok l[z]? := rfl

/-- The loop of `getNextTx` over the minor headers of `rBlock` from the `i`-th
(0-based) on, `headers` being those still to visit: the first deposit found,
with the cursor's new minor index and list. The deposit index is `0` throughout
the loop, so its three "should 0" checks never fail. -/
def scanMinorBlocks (rBlock : RootBlock) : Nat → List MinorBlockHeader →
    Except Failure
      (Option (CrossShardTransactionDeposit × Nat × Option (List CrossShardTransactionDeposit)))
  | _, [] => .ok none
  | i, mBlockHeader :: headers =>
    if mBlockHeader.branch = m.branch ||
        !m.isNeighbor mBlockHeader.branch rBlock.header.number then
      scanMinorBlocks rBlock (i + 1) headers
    else do
      let prevRootHeader ← deref (m.getRootBlockByHash mBlockHeader.prevRootBlockHash)
      if prevRootHeader.header.number ≤ m.genesisRootHeight then
        if (m.xShardLists mBlockHeader.hash).isSome then throw (.error "should nil")
        scanMinorBlocks rBlock (i + 1) headers
      else
        let xTxList := m.xShardLists mBlockHeader.hash
        match ← m.getCurrentTx rBlock (i + 1) 0 xTxList with
        | some tx => pure (some (tx, i + 1, xTxList))
        | none => scanMinorBlocks rBlock (i + 1) headers

end MinorBlockChain

structure XShardTxCursor where
  maxRootBlockHeader : RootBlockHeader
  mBlockIndex : Nat
  xShardDepositIndex : Nat
  xTxList : Option (List CrossShardTransactionDeposit)
  rBlock : Option RootBlock

namespace XShardTxCursor

/-- `NewXShardTxCursor` for a block whose previous root block is
`mBlockHeader.prevRootBlockHash`, resuming at `cursorInfo`. -/
def newXShardTxCursor (m : MinorBlockChain) (mBlockHeader : MinorBlockHeader)
    (cursorInfo : XShardTxCursorInfo) : Except Failure XShardTxCursor := do
  let maxRootBlock ← deref (m.getRootBlockByHash mBlockHeader.prevRootBlockHash)
  let rBlockHeader ←
    m.getRootBlockHeaderByHeight mBlockHeader.prevRootBlockHash cursorInfo.rootBlockHeight
  let c : XShardTxCursor :=
    { maxRootBlockHeader := maxRootBlock.header, mBlockIndex := cursorInfo.minorBlockIndex,
      xShardDepositIndex := cursorInfo.xShardDepositIndex, xTxList := some [], rBlock := none }
  match rBlockHeader with
  | none => pure c
  | some rBlockHeader =>
    let rBlock := m.getRootBlockByHash rBlockHeader.hash
    if c.mBlockIndex ≠ 0 then
      let rBlock' ← deref rBlock
      let some mHeader := rBlock'.minorBlockHeaders[c.mBlockIndex - 1]?
        | throw (.panic "index out of range")
      pure { c with rBlock := rBlock, xTxList := m.xShardLists mHeader.hash }
    else pure { c with rBlock := rBlock }

/-- `getNextTx`: the next deposit, or `none` at the end, and the moved cursor. -/
def getNextTx (m : MinorBlockChain) (x : XShardTxCursor) :
    Except Failure (Option CrossShardTransactionDeposit × XShardTxCursor) := do
  let some rBlock := x.rBlock | pure (none, x)
  let xShardDepositIndex := x.xShardDepositIndex + 1
  if let some tx := (← m.getCurrentTx rBlock x.mBlockIndex xShardDepositIndex x.xTxList) then
    return (some tx, { x with xShardDepositIndex := xShardDepositIndex })
  if let some (tx, mBlockIndex, xTxList) := (← m.scanMinorBlocks rBlock x.mBlockIndex
      (rBlock.minorBlockHeaders.drop x.mBlockIndex)) then
    return (some tx, { x with mBlockIndex := mBlockIndex, xShardDepositIndex := 0, xTxList := xTxList })
  let some rBlockHeader ←
      m.getRootBlockHeaderByHeight x.maxRootBlockHeader.hash (rBlock.header.number + 1)
    | pure (none, { x with rBlock := none, mBlockIndex := 0, xShardDepositIndex := 0 })
  let x := { x with rBlock := m.getRootBlockByHash rBlockHeader.hash, mBlockIndex := 0,
                    xShardDepositIndex := 1 }
  let rBlock ← deref x.rBlock
  let tx ← m.getCurrentTx rBlock 0 1 x.xTxList
  return (tx, x)

def getCursorInfo (x : XShardTxCursor) : XShardTxCursorInfo :=
  { rootBlockHeight := match x.rBlock with
      | some rBlock => rBlock.header.number
      | none => x.maxRootBlockHeader.number + 1,
    minorBlockIndex := x.mBlockIndex, xShardDepositIndex := x.xShardDepositIndex }


/-! The paths through `getNextTx` and `NewXShardTxCursor`, one lemma each. -/

section Paths

variable (m : MinorBlockChain) (x : XShardTxCursor)

theorem getNextTx_of_none (h : x.rBlock = none) : getNextTx m x = .ok (none, x) := by
  simp [getNextTx, h]

theorem getNextTx_of_current {r : RootBlock} {tx : CrossShardTransactionDeposit}
    (h : x.rBlock = some r)
    (hc : m.getCurrentTx r x.mBlockIndex (x.xShardDepositIndex + 1) x.xTxList = .ok (some tx)) :
    getNextTx m x = .ok (some tx, { x with xShardDepositIndex := x.xShardDepositIndex + 1 }) := by
  simp [getNextTx, h, hc]

theorem getNextTx_of_scan {r : RootBlock} {tx : CrossShardTransactionDeposit} {i : Nat}
    {xl : Option (List CrossShardTransactionDeposit)} (h : x.rBlock = some r)
    (hc : m.getCurrentTx r x.mBlockIndex (x.xShardDepositIndex + 1) x.xTxList = .ok none)
    (hs : m.scanMinorBlocks r x.mBlockIndex (r.minorBlockHeaders.drop x.mBlockIndex) =
      .ok (some (tx, i, xl))) :
    getNextTx m x =
      .ok (some tx, { x with mBlockIndex := i, xShardDepositIndex := 0, xTxList := xl }) := by
  simp [getNextTx, h, hc, hs]

theorem getNextTx_of_eof {r : RootBlock} (h : x.rBlock = some r)
    (hc : m.getCurrentTx r x.mBlockIndex (x.xShardDepositIndex + 1) x.xTxList = .ok none)
    (hs : m.scanMinorBlocks r x.mBlockIndex (r.minorBlockHeaders.drop x.mBlockIndex) = .ok none)
    (hh : m.getRootBlockHeaderByHeight x.maxRootBlockHeader.hash (r.header.number + 1) =
      .ok none) :
    getNextTx m x =
      .ok (none, { x with rBlock := none, mBlockIndex := 0, xShardDepositIndex := 0 }) := by
  simp [getNextTx, h, hc, hs, hh]

theorem getNextTx_of_next_root {r r' : RootBlock} {hdr : RootBlockHeader}
    (h : x.rBlock = some r)
    (hc : m.getCurrentTx r x.mBlockIndex (x.xShardDepositIndex + 1) x.xTxList = .ok none)
    (hs : m.scanMinorBlocks r x.mBlockIndex (r.minorBlockHeaders.drop x.mBlockIndex) = .ok none)
    (hh : m.getRootBlockHeaderByHeight x.maxRootBlockHeader.hash (r.header.number + 1) =
      .ok (some hdr))
    (hr : m.getRootBlockByHash hdr.hash = some r') :
    getNextTx m x = .ok (some (m.coinbaseDeposit r'),
      { x with rBlock := some r', mBlockIndex := 0, xShardDepositIndex := 1 }) := by
  simp [getNextTx, h, hc, hs, hh, hr, deref, MinorBlockChain.getCurrentTx_coinbase]

theorem getCursorInfo_of_some {x : XShardTxCursor} {r : RootBlock} (h : x.rBlock = some r) :
    x.getCursorInfo = ⟨r.header.number, x.mBlockIndex, x.xShardDepositIndex⟩ := by
  simp [getCursorInfo, h]

theorem getCursorInfo_of_none {x : XShardTxCursor} (h : x.rBlock = none) :
    x.getCursorInfo = ⟨x.maxRootBlockHeader.number + 1, x.mBlockIndex, x.xShardDepositIndex⟩ := by
  simp [getCursorInfo, h]

variable {hdr : MinorBlockHeader} {info : XShardTxCursorInfo} {top r : RootBlock}
  {rh : RootBlockHeader}

theorem newXShardTxCursor_of_eof (hmax : m.getRootBlockByHash hdr.prevRootBlockHash = some top)
    (hh : m.getRootBlockHeaderByHeight hdr.prevRootBlockHash info.rootBlockHeight = .ok none) :
    newXShardTxCursor m hdr info =
      .ok ⟨top.header, info.minorBlockIndex, info.xShardDepositIndex, some [], none⟩ := by
  simp [newXShardTxCursor, hmax, hh, deref]

theorem newXShardTxCursor_of_root (hmax : m.getRootBlockByHash hdr.prevRootBlockHash = some top)
    (hh : m.getRootBlockHeaderByHeight hdr.prevRootBlockHash info.rootBlockHeight = .ok (some rh))
    (hr : m.getRootBlockByHash rh.hash = some r) (hi : info.minorBlockIndex = 0) :
    newXShardTxCursor m hdr info = .ok ⟨top.header, 0, info.xShardDepositIndex, some [], some r⟩ := by
  simp [newXShardTxCursor, hmax, hh, hr, hi, deref]

theorem newXShardTxCursor_of_minor {i : Nat} {h : MinorBlockHeader}
    (hmax : m.getRootBlockByHash hdr.prevRootBlockHash = some top)
    (hh : m.getRootBlockHeaderByHeight hdr.prevRootBlockHash info.rootBlockHeight = .ok (some rh))
    (hr : m.getRootBlockByHash rh.hash = some r) (hi : info.minorBlockIndex = i + 1)
    (hm : r.minorBlockHeaders[i]? = some h) :
    newXShardTxCursor m hdr info =
      .ok ⟨top.header, i + 1, info.xShardDepositIndex, m.xShardLists h.hash, some r⟩ := by
  simp [newXShardTxCursor, hmax, hh, hr, hi, hm, deref]

end Paths

/-- The loop of `RunCrossShardTxWithCursor` for a block whose cross-shard gas
runs out after `n` deposits: at most `n` calls of `getNextTx`, stopping at the end. -/
def takeDeposits (m : MinorBlockChain) :
    Nat → XShardTxCursor → Except Failure (List CrossShardTransactionDeposit × XShardTxCursor)
  | 0, x => .ok ([], x)
  | n + 1, x => do
    let (tx, x) ← getNextTx m x
    match tx with
    | none => pure ([], x)
    | some tx =>
      let (rest, x) ← takeDeposits m n x
      pure (tx :: rest, x)

/-- The cursors of successive blocks: each block, given by its header and the
number of deposits after which its cross-shard gas runs out, recovers its cursor
at the info the block before it saved, as `RunCrossShardTxWithCursor` does with
its parent's meta, and runs it. -/
def runCursors (m : MinorBlockChain) : XShardTxCursorInfo → List (MinorBlockHeader × Nat) →
    Except Failure (List (List CrossShardTransactionDeposit) × XShardTxCursorInfo)
  | info, [] => .ok ([], info)
  | info, (header, n) :: runs => do
    let x ← newXShardTxCursor m header info
    let (txs, x) ← takeDeposits m n x
    let (rest, info) ← runCursors m x.getCursorInfo runs
    return (txs :: rest, info)

end XShardTxCursor

section LateShardExample

open XShardTxCursor

/-- One chain of two shards: full shard id `2` created at root height `0`, full
shard id `3` at root height `1`. -/
def twoShardConfig : Config.QuarkChainConfig :=
  { shards := (SortedMap.empty.insert 2 ⟨some 0⟩).insert 3 ⟨some 1⟩,
    chainIdToShardSize := SortedMap.empty.insert 0 2, localFeeRate := 1, enableEvmTimeStamp := 0,
    defaultChainTokenID := 0, allowedTokenIDs := [0], networkID := 3,
    xShardGasDDOSFixRootHeight := 0, minMiningGasPrice := 0 }

/-- The genesis root block of shard `3`, at height `1`. -/
def lateGenesisRoot : RootBlock := plainRoot 11 1 10 2

/-- A block of shard `2` mined on root block `10`, at height `0`. -/
def earlyShardHeader : MinorBlockHeader := ⟨300, 1, 299, ⟨2⟩, 10⟩

/-- Root block `12` confirms that block. -/
def confirmingRoot : RootBlock := ⟨(plainRoot 12 2 11 3).header, [earlyShardHeader]⟩

def lateGenesisMinor : MinorBlock := ⟨⟨400, 0, emptyHash, ⟨3⟩, 11⟩, ⟨1, 0, 0⟩⟩

/-- The first block of shard `3` after root block `12`. -/
def lateShardBlock : MinorBlockHeader := ⟨401, 1, 400, ⟨3⟩, 12⟩

/-- Shard `3` accepts root block `12` although it never stored the previous root
block of the shard-`2` header in it, the case `AddRootBlock` tests for. The next
block's cursor returns the two root coinbases (no gas) and then dereferences
that missing root block. -/
theorem getNextTx_missing_prev_root_panics :
    ∃ c, initGenesisState ⟨3⟩ twoShardConfig 1 rfl 8 lateGenesisRoot lateGenesisMinor = .ok c ∧
      (ExceptState.exec (addRootBlock confirmingRoot) c).1 = .ok true ∧
      (ExceptState.exec (addRootBlock confirmingRoot) c).2.validateBlockRoots lateShardBlock
        lateGenesisMinor.header = .ok () ∧
      ((newXShardTxCursor (ExceptState.exec (addRootBlock confirmingRoot) c).2 lateShardBlock
          lateGenesisMinor.xShardTxCursorInfo >>=
        takeDeposits (ExceptState.exec (addRootBlock confirmingRoot) c).2 2).map
          fun r => r.1.map (·.isFromRootChain)) = .ok [true, true] ∧
      (newXShardTxCursor (ExceptState.exec (addRootBlock confirmingRoot) c).2 lateShardBlock
          lateGenesisMinor.xShardTxCursorInfo >>=
        takeDeposits (ExceptState.exec (addRootBlock confirmingRoot) c).2 3).map (·.1) =
        .error nilDereference := by
  refine ⟨_, rfl, ?_, ?_, ?_, ?_⟩
  · rfl
  · rfl
  · rfl
  · rfl

end LateShardExample

end Core
