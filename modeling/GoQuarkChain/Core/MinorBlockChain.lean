import GoQuarkChain.State.StateDB
import GoQuarkChain.Account.Branch
import GoQuarkChain.Types.TokenBalances
import GoQuarkChain.Lib.ExceptState

/-!
# The minor chain's view of the root chain

A shard keeps the root blocks it has been sent, the last block of its own that
each of them confirms, its current tip and the root tip it follows.
`AddRootBlock` files a root block, makes it the root tip when its total
difficulty is higher and then rolls the minor tip back until the tip's previous
root block is on the root tip's chain; `updateTip` decides whether a new minor
block becomes the tip. Both compare root blocks with `isSameChain`, which walks
parent hashes back from the higher header.

Hashes are numbers and the empty hash is `0`. A call ends abnormally in three
ways: an error returned to the caller, a `log.Crit` (which exits the process)
and a runtime panic (a nil dereference or a failed type assertion). Blocks are
their headers: transactions, receipts and EVM states are not read here.
-/

namespace Core

open State

abbrev Hash := Nat

def emptyHash : Hash := 0

/-- How a call ends abnormally. -/
inductive Failure where
  | error (msg : String)
  | crit (msg : String)
  | panic (msg : String)
  /-- Not a behaviour of the source: a loop of the model ran past the bound it
  was given. -/
  | outOfFuel
deriving DecidableEq, Repr

def errMinorBlockIsNil : Failure := .error "minor block is nil"
def errRootBlockIsNil : Failure := .error "root block is nil"
def errNotSameRootChain : Failure := .error "is not same root chain"
def nilDereference : Failure := .panic "invalid memory address or nil pointer dereference"

/-- A value behind a pointer: dereferencing a nil one panics. -/
def deref {α : Type} : Option α → Except Failure α
  | some a => .ok a
  | none => .error nilDereference

/-- `types.IHeader`, as far as `isSameChain` reads it. -/
class IHeader (η : Type) where
  numberU64 : η → Nat
  hash : η → Hash
  getParentHash : η → Hash

structure RootBlockHeader where
  hash : Hash
  number : Nat
  parentHash : Hash
  totalDifficulty : Nat
  version : Nat
  coinbase : Address
  coinbaseAmount : Types.TokenBalances
deriving DecidableEq

structure MinorBlockHeader where
  hash : Hash
  number : Nat
  parentHash : Hash
  branch : Account.Branch
  prevRootBlockHash : Hash
deriving DecidableEq, Repr

structure RootBlock where
  header : RootBlockHeader
  minorBlockHeaders : List MinorBlockHeader
deriving DecidableEq

/-- `types.XShardTxCursorInfo`: where a block's cross-shard cursor stopped. -/
structure XShardTxCursorInfo where
  rootBlockHeight : Nat
  minorBlockIndex : Nat
  xShardDepositIndex : Nat
deriving DecidableEq, Repr

/-- A minor block: its header and the part of its meta the cursor reads. -/
structure MinorBlock where
  header : MinorBlockHeader
  xShardTxCursorInfo : XShardTxCursorInfo
deriving DecidableEq, Repr

instance : IHeader RootBlockHeader :=
  ⟨RootBlockHeader.number, RootBlockHeader.hash, RootBlockHeader.parentHash⟩

instance : IHeader MinorBlockHeader :=
  ⟨MinorBlockHeader.number, MinorBlockHeader.hash, MinorBlockHeader.parentHash⟩

/-- The loop of `isSameChain`: `n` steps to the parent, fatal at the empty hash. -/
def walkParents (getParentHash : Hash → Hash) : Nat → Hash → Except Failure Hash
  | 0, hash => .ok hash
  | n + 1, hash =>
    if getParentHash hash = emptyHash then .error (.crit "mysteriously missing blocks")
    else walkParents getParentHash n (getParentHash hash)

/-- `isSameChain`: is the shorter header an ancestor of, or equal to, the longer one. -/
def isSameChain {η θ : Type} [IHeader η] [IHeader θ] (getParentHash : Hash → Hash)
    (longerChainHeader : η) (shorterChainHeader : θ) : Except Failure Bool :=
  let long := IHeader.numberU64 longerChainHeader
  let short := IHeader.numberU64 shorterChainHeader
  if long < short then .error (.crit "wrong parameter order")
  else if short = long then
    .ok (IHeader.hash shorterChainHeader == IHeader.hash longerChainHeader)
  else if short + 1 = long then
    .ok (IHeader.hash shorterChainHeader == IHeader.getParentHash longerChainHeader)
  else do
    let hash ← walkParents getParentHash (long - short - 1)
      (IHeader.getParentHash longerChainHeader)
    return hash == IHeader.hash shorterChainHeader

/-- The fields of `MinorBlockChain` and of its database that the root-chain
bookkeeping reads and writes. -/
structure MinorBlockChain where
  branch : Account.Branch
  quarkChainConfig : Config.QuarkChainConfig
  genesisRootHeight : Nat
  genesisRootHeight_eq : quarkChainConfig.getGenesisRootHeight branch.value = some genesisRootHeight
  maxBlocksInOneRootBlock : Nat
  rootBlocks : Hash → Option RootBlock
  lastConfirmed : Hash → Hash
  minorBlocks : Hash → Option MinorBlock
  xShardLists : Hash → Option (List CrossShardTransactionDeposit)
  genesisBlocks : Hash → Option MinorBlock
  canonical : Nat → Option Hash
  rootTip : RootBlockHeader
  confirmedHeaderTip : Option MinorBlockHeader
  currentBlock : MinorBlock
  genesisBlock : MinorBlock

namespace MinorBlockChain

variable (m : MinorBlockChain)

def getRootBlockByHash (h : Hash) : Option RootBlock := m.rootBlocks h

def getRootBlockHeaderByHash (h : Hash) : Option RootBlockHeader :=
  (m.rootBlocks h).map (·.header)

/-- The parent function `isSameRootChain` hands to `isSameChain`. -/
def rootParentHash (h : Hash) : Hash :=
  match m.rootBlocks h with
  | some b => b.header.parentHash
  | none => emptyHash

def getParentHashByHash (h : Hash) : Hash :=
  match m.minorBlocks h with
  | some b => b.header.parentHash
  | none => emptyHash

def hasBlock (h : Hash) : Bool := (m.minorBlocks h).isSome

def isSameRootChain (long short : RootBlockHeader) : Except Failure Bool :=
  isSameChain m.rootParentHash long short

/-- `getLastConfirmedMinorBlockHeaderAtRootBlock`; a recorded hash whose header
is missing fails the type assertion on `GetHeader`. -/
def getLastConfirmedMinorBlockHeaderAtRootBlock (h : Hash) :
    Except Failure (Option MinorBlockHeader) :=
  if m.lastConfirmed h = emptyHash then .ok none
  else match m.minorBlocks (m.lastConfirmed h) with
    | some b => .ok (some b.header)
    | none => .error (.panic "interface conversion: types.IHeader is nil")

/-- `isNeighbor`, at an explicit root height. -/
def isNeighbor (remoteBranch : Account.Branch) (rootHeight : Nat) : Bool :=
  Account.isNeighbor m.branch remoteBranch
    (m.quarkChainConfig.getInitializedShardIdsBeforeRootHeight rootHeight).length

def putRootBlock (rBlock : RootBlock) (minorHeader : Option MinorBlockHeader) :
    MinorBlockChain :=
  { m with
    rootBlocks := Function.update m.rootBlocks rBlock.header.hash (some rBlock),
    lastConfirmed := Function.update m.lastConfirmed rBlock.header.hash
      ((minorHeader.map (·.hash)).getD emptyHash) }

/-- `putMinorBlock`, as far as the database read here goes: the block is stored
under its hash unless it is there already. The height index, the transaction
counts and the deposit lists are not modelled. -/
def putMinorBlock (mBlock : MinorBlock) : MinorBlockChain :=
  if m.hasBlock mBlock.header.hash then m
  else { m with minorBlocks := Function.update m.minorBlocks mBlock.header.hash (some mBlock) }

def isMinorBlockLinkedToRootTip (mBlock : MinorBlockHeader) : Except Failure Bool :=
  match m.confirmedHeaderTip with
  | none => .ok true
  | some confirmed =>
    if mBlock.number ≤ confirmed.number then .ok false
    else isSameChain m.getParentHashByHash mBlock confirmed

/-- `updateTip`: whether `block`, just validated, becomes the minor tip. -/
def updateTip (block : MinorBlockHeader) : Except Failure Bool := do
  let some preRootHeader := m.getRootBlockHeaderByHash block.prevRootBlockHash
    | throw (.error "missing prev block")
  let tipPrevRootHeader := m.getRootBlockHeaderByHash m.currentBlock.header.prevRootBlockHash
  if !(← m.isSameRootChain m.rootTip preRootHeader) then return false
  if block.parentHash = m.currentBlock.header.hash then return true
  if ← m.isMinorBlockLinkedToRootTip block then
    if block.number > m.currentBlock.header.number then return true
    if block.number = m.currentBlock.header.number then
      let tipPrevRootHeader ← deref tipPrevRootHeader
      return decide (preRootHeader.number > tipPrevRootHeader.number)
  return false

/-- The root-chain checks of `ValidateBlock` for a block whose parent is `prevHeader`. -/
def validateBlockRoots (block prevHeader : MinorBlockHeader) : Except Failure Unit := do
  let some rootBlockHeader := m.getRootBlockHeaderByHash block.prevRootBlockHash
    | throw errRootBlockIsNil
  let some prevRootHeader := m.getRootBlockHeaderByHash prevHeader.prevRootBlockHash
    | throw errRootBlockIsNil
  if rootBlockHeader.number < prevRootHeader.number then
    throw (.error "pre root block height must be non-decreasing")
  if let some prevConfirmed ← m.getLastConfirmedMinorBlockHeaderAtRootBlock
      block.prevRootBlockHash then
    if !(← isSameChain m.getParentHashByHash prevHeader prevConfirmed) then
      throw (.error "prev root block's minor block is not in the same chain as the minor block")
  if !(← m.isSameRootChain rootBlockHeader prevRootHeader) then
    throw (.error "prev root blocks are not on the same chain")

/-- The loop of `AddRootBlock` over the minor headers a root block confirms: the
shard's own headers are collected and must be stored; another shard's header
must come with a cross-shard list exactly when its previous root block is known,
above this shard's genesis and a neighbour at its height. -/
def checkMinorBlockHeaders : List MinorBlockHeader → Except Failure (List MinorBlockHeader)
  | [] => .ok []
  | mHeader :: rest =>
    if mHeader.branch = m.branch then
      if !m.hasBlock mHeader.hash then .error errMinorBlockIsNil
      else (mHeader :: ·) <$> checkMinorBlockHeaders rest
    else
      let noList := match m.getRootBlockHeaderByHash mHeader.prevRootBlockHash with
        | none => true
        | some prevRootHeader =>
          prevRootHeader.number = m.genesisRootHeight ||
            !m.isNeighbor mHeader.branch prevRootHeader.number
      if noList then
        if (m.xShardLists mHeader.hash).isSome then .error (.error "already have")
        else checkMinorBlockHeaders rest
      else if (m.xShardLists mHeader.hash).isNone then .error (.error "not have")
      else checkMinorBlockHeaders rest

end MinorBlockChain

/-- `InitGenesisState` on a fresh chain: the genesis root block `rBlock`, at the
shard's genesis height, and the genesis block `gBlock` built from it. -/
def initGenesisState (branch : Account.Branch) (quarkChainConfig : Config.QuarkChainConfig)
    (genesisRootHeight : Nat)
    (h : quarkChainConfig.getGenesisRootHeight branch.value = some genesisRootHeight)
    (maxBlocksInOneRootBlock : Nat) (rBlock : RootBlock) (gBlock : MinorBlock) :
    Except Failure MinorBlockChain :=
  if rBlock.header.number ≠ genesisRootHeight then .error (.error "header number not match")
  else .ok
    { branch := branch, quarkChainConfig := quarkChainConfig,
      genesisRootHeight := genesisRootHeight, genesisRootHeight_eq := h,
      maxBlocksInOneRootBlock := maxBlocksInOneRootBlock,
      rootBlocks := fun x => if x = rBlock.header.hash then some rBlock else none,
      lastConfirmed := fun _ => emptyHash,
      minorBlocks := fun x => if x = gBlock.header.hash then some gBlock else none,
      xShardLists := fun _ => none,
      genesisBlocks := fun x => if x = rBlock.header.hash then some gBlock else none,
      canonical := fun n => if n = 0 then some gBlock.header.hash else none,
      rootTip := rBlock.header, confirmedHeaderTip := none, currentBlock := gBlock,
      genesisBlock := gBlock }

/-- Methods of `MinorBlockChain`. -/
abbrev ChainM := ExceptT Failure (StateM MinorBlockChain)

def liftChain {α : Type} : Except Failure α → ChainM α
  | .ok a => pure a
  | .error e => throw e

/-- The walk of the reset branch of `AddRootBlock` down the root chain to the
shard's genesis height; `fuel` bounds the steps. -/
def findGenesisRootHeader (m : MinorBlockChain) : Nat → RootBlockHeader →
    Except Failure RootBlockHeader
  | 0, header => .ok header
  | fuel + 1, header =>
    if header.number = m.genesisRootHeight then .ok header
    else match m.getRootBlockHeaderByHash header.parentHash with
      | none => .error errMinorBlockIsNil
      | some parent => findGenesisRootHeader m fuel parent

/-- The loop of `AddRootBlock` that moves the minor tip back until its previous
root block is on the root tip's chain, resetting to the genesis of the new root
chain when it reaches height `0`; `fuel` bounds the steps. -/
def rollBackTip : Nat → ChainM Unit
  | 0 => pure ()
  | fuel + 1 => do
    let m ← get
    let prev ← liftChain
      (deref (m.getRootBlockHeaderByHash m.currentBlock.header.prevRootBlockHash))
    if ← liftChain (m.isSameRootChain m.rootTip prev) then return
    if m.currentBlock.header.number = 0 then
      if m.rootTip.number < m.genesisRootHeight then
        throw (.error "genesis root height small than config")
      let genesisRootHeader ← liftChain (findGenesisRootHeader m m.rootTip.number m.rootTip)
      let some newGenesis := m.genesisBlocks genesisRootHeader.hash
        | throw (.panic "get genesis block is nil")
      set { m with genesisBlock := newGenesis, currentBlock := newGenesis,
                   canonical := fun n => if n = 0 then some newGenesis.header.hash else none }
      return
    let preBlock ← liftChain (deref (m.minorBlocks m.currentBlock.header.parentHash))
    set { m with currentBlock := preBlock }
    rollBackTip fuel

/-- `AddRootBlock`. The final rewrite of the block index (`reWriteBlockIndexTo`)
and the reload of the tip's EVM state are not modelled. -/
def addRootBlock (rBlock : RootBlock) : ChainM Bool := do
  let m ← get
  if rBlock.header.number ≤ m.genesisRootHeight then
    throw (.error "rBlock is small than config")
  if rBlock.header.version ≠ 0 then throw (.error "incorrect root block version")
  if (m.getRootBlockByHash rBlock.header.hash).isSome then return false
  if (m.getRootBlockByHash rBlock.header.parentHash).isNone then throw errRootBlockIsNil
  let shardHeaders ← liftChain (m.checkMinorBlockHeaders rBlock.minorBlockHeaders)
  if shardHeaders.length > m.maxBlocksInOneRootBlock then
    throw (.error "shardHeaders big than config")
  let lastMinorHeaderInPrevRootBlock ←
    liftChain (m.getLastConfirmedMinorBlockHeaderAtRootBlock rBlock.header.parentHash)
  let shardHeader ← match shardHeaders with
    | [] => pure lastMinorHeaderInPrevRootBlock
    | first :: _ =>
      if first.number = 0 then pure shardHeaders.getLast?
      else do
        let last ← liftChain (deref lastMinorHeaderInPrevRootBlock)
        if first.parentHash = last.hash then pure shardHeaders.getLast?
        else throw (.error "master should assure this check will not fail")
  modify (·.putRootBlock rBlock shardHeader)
  if let some shardHeader := shardHeader then
    let m ← get
    let short ← liftChain (deref (m.getRootBlockHeaderByHash shardHeader.prevRootBlockHash))
    if !(← liftChain (m.isSameRootChain rBlock.header short)) then throw errNotSameRootChain
  let m ← get
  if rBlock.header.totalDifficulty ≤ m.rootTip.totalDifficulty then
    let prev ← liftChain
      (deref (m.getRootBlockHeaderByHash m.currentBlock.header.prevRootBlockHash))
    if !(← liftChain (m.isSameRootChain m.rootTip prev)) then throw errNotSameRootChain
    return false
  set { m with rootTip := rBlock.header, confirmedHeaderTip := shardHeader }
  if let some shardHeader := shardHeader then
    let m ← get
    let origBlock := (m.canonical shardHeader.number).bind m.minorBlocks
    if origBlock.all (·.header.hash ≠ shardHeader.hash) then
      let b ← liftChain (deref (m.minorBlocks shardHeader.hash))
      set { m with currentBlock := b }
  let m ← get
  rollBackTip (m.currentBlock.header.number + 1)
  return true

section ForkExample

/-- One chain with one shard, full shard id `1`, created at root height `0`. -/
def oneShardConfig : Config.QuarkChainConfig :=
  { shards := SortedMap.empty.insert 1 ⟨some 0⟩, chainIdToShardSize := SortedMap.empty.insert 0 1,
    localFeeRate := 1, enableEvmTimeStamp := 0, defaultChainTokenID := 0, allowedTokenIDs := [0],
    networkID := 3, xShardGasDDOSFixRootHeight := 0, minMiningGasPrice := 0 }

/-- A root block without confirmed headers and with an empty coinbase. -/
def plainRoot (hash number parentHash totalDifficulty : Nat) : RootBlock :=
  ⟨⟨hash, number, parentHash, totalDifficulty, 0, ⟨0, 0⟩, ⟨SortedMap.empty⟩⟩, []⟩

def genesisRoot : RootBlock := plainRoot 10 0 emptyHash 1

def genesisMinor : MinorBlock := ⟨⟨100, 0, emptyHash, ⟨1⟩, 10⟩, ⟨0, 0, 0⟩⟩

/-- A heavy root block at height `1`, and a lighter fork of height `2` beside it. -/
def heavyRoot : RootBlock := plainRoot 11 1 10 100
def forkRoot1 : RootBlock := plainRoot 21 1 10 10
def forkRoot2 : RootBlock := plainRoot 22 2 21 20

def addForkRoots : ChainM Bool := do
  let _ ← addRootBlock heavyRoot
  let _ ← addRootBlock forkRoot1
  addRootBlock forkRoot2

/-- A minor block on the genesis block that points at the top of the fork. -/
def forkChild : MinorBlockHeader := ⟨200, 1, 100, ⟨1⟩, 22⟩

/-- After the heavy root block and the lighter, longer fork are added, a block
whose previous root block tops the fork passes the root checks of
`ValidateBlock`, and `updateTip` calls `isSameChain` with the lower header
first: `log.Crit` ends the process. -/
theorem updateTip_light_fork_crit :
    ∃ c, initGenesisState ⟨1⟩ oneShardConfig 0 rfl 8 genesisRoot genesisMinor = .ok c ∧
      (ExceptState.exec addForkRoots c).1 = .ok false ∧
      (ExceptState.exec addForkRoots c).2.validateBlockRoots forkChild genesisMinor.header =
        .ok () ∧
      (ExceptState.exec addForkRoots c).2.updateTip forkChild =
        .error (.crit "wrong parameter order") := by
  refine ⟨_, rfl, ?_, ?_, ?_⟩
  · rfl
  · rfl
  · rfl

end ForkExample

section ConfirmedForkExample

/-- Two blocks on the genesis block. -/
def firstMinor : MinorBlock := ⟨⟨101, 1, 100, ⟨1⟩, 10⟩, ⟨0, 0, 0⟩⟩
def secondMinor : MinorBlock := ⟨⟨102, 2, 101, ⟨1⟩, 10⟩, ⟨0, 0, 0⟩⟩

/-- A root block at height `1` confirming the genesis block and the two above it. -/
def forkConfirmingRoot : RootBlock :=
  ⟨(plainRoot 12 1 10 100).header, [genesisMinor.header, firstMinor.header, secondMinor.header]⟩

/-- A sibling of `secondMinor` whose previous root block is `forkConfirmingRoot`. -/
def siblingMinor : MinorBlockHeader := ⟨201, 2, 101, ⟨1⟩, 12⟩

/-- The shard stores its first two blocks and accepts the root block that
confirms them. A sibling of the second block that names this root block as
its previous one reaches `isSameChain` with its parent (height `1`) as the
longer chain and the confirmed block (height `2`) as the shorter: `log.Crit`
ends the process where an error was due. -/
theorem validateBlockRoots_sibling_crit :
    ∃ c, initGenesisState ⟨1⟩ oneShardConfig 0 rfl 8 genesisRoot genesisMinor = .ok c ∧
      (ExceptState.exec (addRootBlock forkConfirmingRoot)
        ((c.putMinorBlock firstMinor).putMinorBlock secondMinor)).1 = .ok true ∧
      (ExceptState.exec (addRootBlock forkConfirmingRoot)
        ((c.putMinorBlock firstMinor).putMinorBlock secondMinor)).2.validateBlockRoots
          siblingMinor firstMinor.header = .error (.crit "wrong parameter order") := by
  refine ⟨_, rfl, ?_, ?_⟩
  · rfl
  · rfl

end ConfirmedForkExample

end Core
