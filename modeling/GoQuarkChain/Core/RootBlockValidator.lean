import GoQuarkChain.Core.MinorBlockChain

/-!
# The root chain's record of the shard chains

`RootBlockValidator.ValidateBlock` accepts a root block only if the minor
headers it confirms continue, shard by shard, those its parent confirmed, and
then stores under the block's hash the latest confirmed header of every shard
(`SetLatestMinorBlockHeaders`). Its loop over the headers checks that the full
shard ids never decrease and links each header to the one before it in its
shard; its loop over the shards bounds each group, checks that the shard is
initialized and links the group to the parent's latest header of the shard.

By induction over every run of the store from its genesis, every stored root
block sees, in each shard, the headers confirmed along its chain as one chain
from height `0`, and the latest headers stored for it end that chain.

The checks this model leaves out only refuse blocks: those of `ValidateBlock`
on fields not modelled here (the times, the total difficulty, the tracking
data, the merkle and state roots, the coinbase amount) and those of the
consensus engine other than the version and the parent's height. What is shown
here holds a fortiori of the blocks they let through. `force`, which
re-validates a block already stored, is set only when the node re-checks its
own database; the runs below are those of `InsertChain` without it.
-/

namespace Core

open Relation

def errKnownBlock : Failure := .error "block already known"
def errUnknownAncestor : Failure := .error "unknown ancestor"
def errNoGenesis : Failure := .error "Genesis not found in chain"
def indexOutOfRange : Failure := .panic "index out of range"

/-- The minor headers of one shard among a list, in their order. -/
def headersOfShard (fullShardId : Nat) (headers : List MinorBlockHeader) :
    List MinorBlockHeader :=
  headers.filter (·.branch.getFullShardID = fullShardId)

/-! ### One chain of minor blocks -/

/-- `child` is the block after `parent` in one shard's chain. -/
def IsChild (parent child : MinorBlockHeader) : Prop :=
  child.number = parent.number + 1 ∧ child.parentHash = parent.hash

instance : DecidableRel IsChild := fun _ _ => inferInstanceAs (Decidable (_ ∧ _))

/-- `headers` start right after `last`, or at height `0` when nothing came before. -/
def StartsAfter : Option MinorBlockHeader → List MinorBlockHeader → Prop
  | none, headers => ∀ first ∈ headers.head?, first.number = 0
  | some last, headers => ∀ first ∈ headers.head?, IsChild last first

instance : ∀ last headers, Decidable (StartsAfter last headers)
  | none, _ => inferInstanceAs (Decidable (∀ _ ∈ _, _))
  | some _, _ => inferInstanceAs (Decidable (∀ _ ∈ _, _))

/-- `headers` continue the shard chain that ended at `last`, one child after another. -/
def Continues (last : Option MinorBlockHeader) (headers : List MinorBlockHeader) : Prop :=
  StartsAfter last headers ∧ headers.IsChain IsChild

instance (last : Option MinorBlockHeader) (headers : List MinorBlockHeader) :
    Decidable (Continues last headers) :=
  inferInstanceAs (Decidable (_ ∧ _))

/-- One shard chain from its genesis, with no gap, fork or repeated height. -/
def ContiguousFromGenesis (headers : List MinorBlockHeader) : Prop := Continues none headers

instance (headers : List MinorBlockHeader) : Decidable (ContiguousFromGenesis headers) :=
  inferInstanceAs (Decidable (Continues none headers))

/-! ### Shard chains -/

section ShardChains

variable {s : Nat} {last : Option MinorBlockHeader} {a b : List MinorBlockHeader}

@[simp] theorem headersOfShard_nil : headersOfShard s [] = [] := rfl

@[simp] theorem headersOfShard_append (l l' : List MinorBlockHeader) :
    headersOfShard s (l ++ l') = headersOfShard s l ++ headersOfShard s l' :=
  List.filter_append ..

theorem headersOfShard_singleton (m : MinorBlockHeader) :
    headersOfShard s [m] = if m.branch.getFullShardID = s then [m] else [] := by
  by_cases hm : m.branch.getFullShardID = s <;> simp [headersOfShard, hm]

theorem mem_headersOfShard {m : MinorBlockHeader} {l : List MinorBlockHeader} :
    m ∈ headersOfShard s l ↔ m ∈ l ∧ m.branch.getFullShardID = s := by
  simp [headersOfShard]

/-- Every header of a shard's list is of that shard. -/
theorem fullShardId_of_mem_headersOfShard {m : MinorBlockHeader} {l : List MinorBlockHeader}
    (hm : m ∈ headersOfShard s l) : m.branch.getFullShardID = s :=
  (mem_headersOfShard.mp hm).2

/-- A list ending in a header of the shard ends, in that shard, in the same header. -/
theorem getLast?_headersOfShard {l : List MinorBlockHeader} {p : MinorBlockHeader}
    (hl : l.getLast? = some p) (hp : p.branch.getFullShardID = s) :
    (headersOfShard s l).getLast? = some p := by
  obtain ⟨l', rfl⟩ := List.getLast?_eq_some_iff.mp hl
  simp [headersOfShard_singleton, hp]

theorem startsAfter_nil (last : Option MinorBlockHeader) : StartsAfter last [] := by
  cases last <;> simp [StartsAfter]

theorem continues_nil (last : Option MinorBlockHeader) : Continues last [] :=
  ⟨startsAfter_nil last, List.isChain_nil⟩

/-- Where a list starts does not change when more is appended to it. -/
theorem startsAfter_append (ha : a ≠ []) : StartsAfter last (a ++ b) ↔ StartsAfter last a := by
  obtain ⟨x, a', rfl⟩ := List.exists_cons_of_ne_nil ha
  cases last <;> simp [StartsAfter]

/-- Two pieces of a shard chain put end to end: the second continues from the
last header of the first, or from where the first started when it is empty. -/
theorem Continues.append (ha : Continues last a) (hb : Continues (a.getLast?.or last) b) :
    Continues last (a ++ b) := by
  cases hlast : a.getLast? with
  | none =>
    rw [List.getLast?_eq_none_iff.mp hlast]
    simpa [hlast] using hb
  | some p =>
    rw [hlast, Option.some_or] at hb
    have hne : a ≠ [] := by
      rintro rfl
      cases hlast
    refine ⟨(startsAfter_append hne).mpr ha.1, ha.2.append hb.2 ?_⟩
    intro x hx y hy
    rw [hlast, Option.mem_some_iff] at hx
    subst hx
    exact hb.1 y hy

end ShardChains

/-! ### The store -/

/-- The root chain's store, as far as `ValidateBlock` and the insertion of
blocks read and write it. -/
structure RootBlockChain where
  quarkChainConfig : Config.QuarkChainConfig
  /-- `MaxBlocksPerShardInOneRootBlock` of each shard's config. -/
  maxBlocksPerShardInOneRootBlock : Nat → Nat
  blocks : Hash → Option RootBlock
  /-- `ContainMinorBlockByHash`: the minor blocks the shards reported validated. -/
  containMinorBlockByHash : Hash → Bool
  /-- The lists `WriteLatestMinorBlockHeaders` stored, by root block hash; empty
  where none was written. -/
  latestMinorBlockHeaders : Hash → List MinorBlockHeader

/-- The root blocks from the one stored at `hash` down `fuel` parent links,
oldest first. -/
def rootChainFrom (blocks : Hash → Option RootBlock) : Nat → Hash → List RootBlock
  | 0, _ => []
  | fuel + 1, hash =>
    match blocks hash with
    | none => []
    | some block => rootChainFrom blocks fuel block.header.parentHash ++ [block]

namespace RootBlockChain

variable (bc : RootBlockChain)

def hasBlock (hash : Hash) : Bool := (bc.blocks hash).isSome

def getParentHashByHash (hash : Hash) : Hash :=
  match bc.blocks hash with
  | some b => b.header.parentHash
  | none => emptyHash

/-- `GetLatestMinorBlockHeaders`: the stored list, keyed by each header's full shard id. -/
def getLatestMinorBlockHeaders (hash : Hash) : SortedMap Nat MinorBlockHeader :=
  (bc.latestMinorBlockHeaders hash).foldl
    (fun headerMap header => headerMap.insert header.branch.getFullShardID header) .empty

/-- `SetLatestMinorBlockHeaders`: the map's headers are stored as a list. -/
def setLatestMinorBlockHeaders (hash : Hash) (headerMap : SortedMap Nat MinorBlockHeader) :
    RootBlockChain :=
  { bc with
    latestMinorBlockHeaders :=
      Function.update bc.latestMinorBlockHeaders hash (headerMap.entries.map Prod.snd) }

/-- `WriteBlockWithState`, as far as the stored blocks go; the head it may move
is not modelled. -/
def writeBlock (block : RootBlock) : RootBlockChain :=
  { bc with blocks := Function.update bc.blocks block.header.hash (some block) }

/-- `CommonEngine.VerifyHeader`, as far as it reads the store. `ValidateBlock`
calls it once `1 ≤ number`, so `number - 1` does not wrap. -/
def verifyHeader (header : RootBlockHeader) : Except Failure Unit := do
  if header.version ≠ 0 then throw (.error "incorrect block's version")
  let some parent := bc.blocks header.parentHash | throw errUnknownAncestor
  if parent.header.number ≠ header.number - 1 then throw (.error "incorrect block height")

/-- What `ValidateBlock`'s loop over the minor headers carries from one header
to the next. -/
structure HeaderScan where
  fullShardId : Nat
  parentHeader : Option MinorBlockHeader
  prevRootBlockHashList : List Hash
  shardIdToMinorHeadersMap : SortedMap Nat (List MinorBlockHeader)

def HeaderScan.init : HeaderScan := ⟨0, none, [], .empty⟩

/-- One round of the loop over the minor headers; the headers' times are not
modelled. A header of the shard of the one before must be its child: the first
header has no one before it, so one of shard `0` dereferences nil. -/
def scanMinorHeader (acc : HeaderScan) (mheader : MinorBlockHeader) :
    Except Failure HeaderScan := do
  if !bc.containMinorBlockByHash mheader.hash then
    throw (.error "minor block is not validated.")
  let id := mheader.branch.getFullShardID
  if id < acc.fullShardId then throw (.error "shard id must be ordered")
  let groups ←
    if acc.fullShardId < id then pure (acc.shardIdToMinorHeadersMap.insert id [])
    else do
      let parentHeader ← deref acc.parentHeader
      if mheader.number ≠ parentHeader.number + 1 then
        throw (.error "mheader.Number must equal to prev header + 1")
      else if mheader.parentHash ≠ parentHeader.hash then
        throw (.error "1-minor block does not link to previous block")
      else pure acc.shardIdToMinorHeadersMap
  pure ⟨id, some mheader, acc.prevRootBlockHashList ++ [mheader.prevRootBlockHash],
    groups.insert id ((groups.get? id).getD [] ++ [mheader])⟩

/-- The check of one previous root block named by a minor header: it is stored,
and on the chain of the block being validated. -/
def checkPrevRootBlock (header : RootBlockHeader) (key : Hash) : Except Failure Unit := do
  let some prev := bc.blocks key | throw (.error "root block not found")
  let same ← isSameChain bc.getParentHashByHash header prev.header
  if !same then throw (.error "minor block's prev root block must be in the same chain")

/-- The link of a shard's first header in the block to the shard's latest
header before it; a shard with none must start at height `0`. -/
def linkToLatest (prevHeader : Option MinorBlockHeader) (first : MinorBlockHeader) :
    Except Failure Unit :=
  match prevHeader with
  | none =>
    if first.number ≠ 0 then throw (.error "genesis block height is not 0 for shard")
    else pure ()
  | some prevHeader =>
    if prevHeader.number + 1 ≠ first.number ∨ prevHeader.hash ≠ first.parentHash then
      throw (.error "2-minor block does not link to previous block")
    else pure ()

/-- One round of the loop over the shards: the group's size, the shard's
initialization, and the link of the group to the latest header of the shard.
The source walks a Go map; a run that succeeds gives the same result in every
order, and the model takes the keys in increasing order. -/
def checkShardHeaders (fullShardIdList : List Nat)
    (latestMinorBlockHeaders : SortedMap Nat MinorBlockHeader)
    (group : Nat × List MinorBlockHeader) : Except Failure (SortedMap Nat MinorBlockHeader) := do
  let (fullShardId, minorHeaders) := group
  -- the config of an unknown shard is nil, and reading its limit panics
  let _ ← deref (bc.quarkChainConfig.shards.get? fullShardId)
  if minorHeaders.length > bc.maxBlocksPerShardInOneRootBlock fullShardId then
    throw (.error "too many minor blocks in the root block for shard")
  if fullShardId ∉ fullShardIdList then
    throw (.error "found minor block header in root block for uninitialized shard")
  let some first := minorHeaders.head? | throw indexOutOfRange
  linkToLatest (latestMinorBlockHeaders.get? fullShardId) first
  let some last := minorHeaders.getLast? | throw indexOutOfRange
  pure (latestMinorBlockHeaders.insert fullShardId last)

/-- `RootBlockValidator.ValidateBlock`: the store it leaves, with the latest
headers of the block written. -/
def validateBlock (rootBlock : RootBlock) (force : Bool) : Except Failure RootBlockChain := do
  let header := rootBlock.header
  if header.number < 1 then throw (.error "unexpected height")
  if bc.hasBlock header.hash && !force then throw errKnownBlock
  bc.verifyHeader header
  let some _parent := bc.blocks header.parentHash | throw (.error "no such root block")
  let scan ← rootBlock.minorBlockHeaders.foldlM bc.scanMinorHeader HeaderScan.init
  scan.prevRootBlockHashList.forM (bc.checkPrevRootBlock header)
  -- never taken: the height was checked first
  if header.number < 1 then return bc
  let fullShardIdList := bc.quarkChainConfig.getInitializedShardIdsBeforeRootHeight header.number
  let latest ← scan.shardIdToMinorHeadersMap.entries.foldlM
    (bc.checkShardHeaders fullShardIdList) (bc.getLatestMinorBlockHeaders header.parentHash)
  pure (bc.setLatestMinorBlockHeaders header.hash latest)

/-- `NewRootBlockChain` on a database that holds the genesis of
`CreateRootBlock`, a block with no minor headers; the chain looks it up at
height `0`. -/
def new (quarkChainConfig : Config.QuarkChainConfig) (maxBlocksPerShardInOneRootBlock : Nat → Nat)
    (containMinorBlockByHash : Hash → Bool) (genesisHeader : RootBlockHeader) :
    Except Failure RootBlockChain :=
  if genesisHeader.number ≠ 0 then .error errNoGenesis
  else .ok ⟨quarkChainConfig, maxBlocksPerShardInOneRootBlock,
    Function.update (fun _ => none) genesisHeader.hash (some ⟨genesisHeader, []⟩),
    containMinorBlockByHash, fun _ => []⟩

/-- The root chain that ends at the block stored at `hash`, from the genesis. -/
def rootChain (hash : Hash) : List RootBlock :=
  match bc.blocks hash with
  | none => []
  | some block => rootChainFrom bc.blocks (block.header.number + 1) hash

/-- The minor headers of one shard confirmed along the root chain ending at `hash`. -/
def confirmedMinorBlockHeaders (hash : Hash) (fullShardId : Nat) : List MinorBlockHeader :=
  headersOfShard fullShardId ((bc.rootChain hash).flatMap RootBlock.minorBlockHeaders)

end RootBlockChain

/-! ### Reading and writing the store -/

section Store

variable (bc : RootBlockChain) {hash : Hash}

@[simp] theorem writeBlock_blocks (block : RootBlock) (hash : Hash) :
    (bc.writeBlock block).blocks hash =
      if hash = block.header.hash then some block else bc.blocks hash :=
  Function.update_apply ..

@[simp] theorem writeBlock_latestMinorBlockHeaders (block : RootBlock) :
    (bc.writeBlock block).latestMinorBlockHeaders = bc.latestMinorBlockHeaders := rfl

@[simp] theorem writeBlock_maxBlocksPerShardInOneRootBlock (block : RootBlock) :
    (bc.writeBlock block).maxBlocksPerShardInOneRootBlock = bc.maxBlocksPerShardInOneRootBlock :=
  rfl

@[simp] theorem setLatestMinorBlockHeaders_blocks (latest : SortedMap Nat MinorBlockHeader) :
    (bc.setLatestMinorBlockHeaders hash latest).blocks = bc.blocks := rfl

@[simp] theorem setLatestMinorBlockHeaders_maxBlocksPerShardInOneRootBlock
    (latest : SortedMap Nat MinorBlockHeader) :
    (bc.setLatestMinorBlockHeaders hash latest).maxBlocksPerShardInOneRootBlock =
      bc.maxBlocksPerShardInOneRootBlock := rfl

theorem setLatestMinorBlockHeaders_latestMinorBlockHeaders_of_ne {hash' : Hash}
    (latest : SortedMap Nat MinorBlockHeader) (hne : hash' ≠ hash) :
    (bc.setLatestMinorBlockHeaders hash latest).latestMinorBlockHeaders hash' =
      bc.latestMinorBlockHeaders hash' :=
  Function.update_of_ne hne ..

theorem getLatestMinorBlockHeaders_writeBlock (block : RootBlock) :
    (bc.writeBlock block).getLatestMinorBlockHeaders = bc.getLatestMinorBlockHeaders := rfl

theorem getLatestMinorBlockHeaders_setLatestMinorBlockHeaders_of_ne {hash' : Hash}
    (latest : SortedMap Nat MinorBlockHeader) (hne : hash' ≠ hash) :
    (bc.setLatestMinorBlockHeaders hash latest).getLatestMinorBlockHeaders hash' =
      bc.getLatestMinorBlockHeaders hash' := by
  simp only [RootBlockChain.getLatestMinorBlockHeaders,
    setLatestMinorBlockHeaders_latestMinorBlockHeaders_of_ne bc latest hne]

/-- Written and read back, a map whose headers sit under their own full shard
ids is the same map. -/
theorem get?_getLatestMinorBlockHeaders_setLatestMinorBlockHeaders
    (latest : SortedMap Nat MinorBlockHeader)
    (hkey : ∀ e ∈ latest.entries, e.2.branch.getFullShardID = e.1) (s : Nat) :
    ((bc.setLatestMinorBlockHeaders hash latest).getLatestMinorBlockHeaders hash).get? s =
      latest.get? s := by
  simp only [RootBlockChain.getLatestMinorBlockHeaders, RootBlockChain.setLatestMinorBlockHeaders,
    Function.update_self]
  exact SortedMap.get?_foldl_insert_values _ latest hkey s

@[simp] theorem get?_getLatestMinorBlockHeaders_of_nil (hnil : bc.latestMinorBlockHeaders hash = [])
    (s : Nat) : (bc.getLatestMinorBlockHeaders hash).get? s = none := by
  simp [RootBlockChain.getLatestMinorBlockHeaders, hnil]

/-- The walk down from a block: the block, after the walk down from its parent. -/
theorem rootChainFrom_succ_of_some (blocks : Hash → Option RootBlock) {block : RootBlock}
    (hb : blocks hash = some block) (fuel : Nat) :
    rootChainFrom blocks (fuel + 1) hash =
      rootChainFrom blocks fuel block.header.parentHash ++ [block] := by
  simp [rootChainFrom, hb]

end Store

/-! ### The loop over the minor headers -/

namespace RootBlockChain

section Scan

variable (bc : RootBlockChain)

/-- A round of the loop that goes through: the header opens a new group, or
is the child of the header before it. -/
theorem scanMinorHeader_ok {acc acc' : HeaderScan} {m : MinorBlockHeader}
    (h : bc.scanMinorHeader acc m = .ok acc') :
    ∃ groups, acc' = ⟨m.branch.getFullShardID, some m,
        acc.prevRootBlockHashList ++ [m.prevRootBlockHash],
        groups.insert m.branch.getFullShardID ((groups.get? m.branch.getFullShardID).getD [] ++ [m])⟩ ∧
      (acc.fullShardId < m.branch.getFullShardID ∧
          groups = acc.shardIdToMinorHeadersMap.insert m.branch.getFullShardID [] ∨
        acc.fullShardId = m.branch.getFullShardID ∧
          ∃ p, acc.parentHeader = some p ∧ IsChild p m ∧ groups = acc.shardIdToMinorHeadersMap) := by
  simp only [scanMinorHeader] at h
  split at h
  · cases h
  split at h
  · cases h
  rename_i hge
  split at h
  · rename_i hnew
    exact ⟨_, (Except.ok.inj h).symm, .inl ⟨hnew, rfl⟩⟩
  rename_i hold
  cases hp : acc.parentHeader with
  | none =>
    rw [hp] at h
    cases h
  | some p =>
    rw [hp] at h
    simp only [deref, Except.ok_bind] at h
    split at h
    · cases h
    split at h
    · cases h
    rename_i hnum hlink
    refine ⟨_, (Except.ok.inj h).symm, .inr ⟨by omega, p, rfl, ?_, rfl⟩⟩
    exact ⟨not_not.mp hnum, not_not.mp hlink⟩

/-- What the loop over the minor headers knows of the headers `pre` it has
gone through. -/
structure ScanInv (pre : List MinorBlockHeader) (acc : HeaderScan) : Prop where
  le_fullShardId : ∀ m ∈ pre, m.branch.getFullShardID ≤ acc.fullShardId
  parentHeader_eq : acc.parentHeader = pre.getLast?
  last_fullShardId : ∀ p ∈ pre.getLast?, p.branch.getFullShardID = acc.fullShardId
  ordered : pre.Pairwise fun a b => a.branch.getFullShardID ≤ b.branch.getFullShardID
  groups : ∀ s, acc.shardIdToMinorHeadersMap.get? s =
    if headersOfShard s pre = [] then none else some (headersOfShard s pre)
  linked : ∀ s, (headersOfShard s pre).IsChain IsChild

theorem scanInv_init : ScanInv [] HeaderScan.init where
  le_fullShardId := by simp
  parentHeader_eq := rfl
  last_fullShardId := by simp
  ordered := List.Pairwise.nil
  groups := by simp [HeaderScan.init]
  linked := by simp

/-- The headers before a new group are all of lower shards: the group starts empty. -/
theorem ScanInv.headersOfShard_eq_nil {pre : List MinorBlockHeader} {acc : HeaderScan}
    (hinv : ScanInv pre acc) {s : Nat} (hs : acc.fullShardId < s) : headersOfShard s pre = [] := by
  rw [headersOfShard, List.filter_eq_nil_iff]
  intro x hx
  have hle := hinv.le_fullShardId x hx
  simp only [decide_eq_true_eq]
  omega

/-- The group of the header before: it ends with that header. -/
theorem ScanInv.group_getLast? {pre : List MinorBlockHeader} {acc : HeaderScan}
    (hinv : ScanInv pre acc) {p : MinorBlockHeader} (hp : acc.parentHeader = some p) :
    (headersOfShard acc.fullShardId pre).getLast? = some p := by
  rw [hinv.parentHeader_eq] at hp
  exact getLast?_headersOfShard hp (hinv.last_fullShardId p hp)

/-- Each round keeps what the loop knows, one header further. -/
theorem ScanInv.step {pre : List MinorBlockHeader} {acc acc' : HeaderScan} {m : MinorBlockHeader}
    (hinv : ScanInv pre acc) (h : bc.scanMinorHeader acc m = .ok acc') :
    ScanInv (pre ++ [m]) acc' := by
  obtain ⟨groups, rfl, hcase⟩ := bc.scanMinorHeader_ok h
  have hge : acc.fullShardId ≤ m.branch.getFullShardID := by
    rcases hcase with ⟨hnew, -⟩ | ⟨hsame, -⟩ <;> omega
  have hle : ∀ x ∈ pre, x.branch.getFullShardID ≤ m.branch.getFullShardID := by
    intro x hx
    have := hinv.le_fullShardId x hx
    omega
  -- the group of `m`, before and after the round
  have hgroup : groups.get? m.branch.getFullShardID = some (headersOfShard m.branch.getFullShardID pre) := by
    rcases hcase with ⟨hnew, rfl⟩ | ⟨hsame, p, hp, -, rfl⟩
    · rw [hinv.headersOfShard_eq_nil hnew]
      simp
    · have hlast := hinv.group_getLast? hp
      rw [hsame] at hlast
      have hne : headersOfShard m.branch.getFullShardID pre ≠ [] := by
        intro hnil
        rw [hnil] at hlast
        cases hlast
      rw [hinv.groups, if_neg hne]
  have hother : ∀ s, s ≠ m.branch.getFullShardID →
      groups.get? s = acc.shardIdToMinorHeadersMap.get? s := by
    intro s hs
    rcases hcase with ⟨-, rfl⟩ | ⟨-, -, -, -, rfl⟩
    · simp [hs]
    · rfl
  constructor
  · intro x hx
    rw [List.mem_append, List.mem_singleton] at hx
    rcases hx with hx | rfl
    · exact hle x hx
    · exact le_refl _
  · simp
  · simp
  · rw [List.pairwise_append]
    refine ⟨hinv.ordered, List.pairwise_singleton _ _, ?_⟩
    intro x hx y hy
    rw [List.mem_singleton] at hy
    subst hy
    exact hle x hx
  · intro s
    by_cases hs : s = m.branch.getFullShardID
    · subst hs
      simp [hgroup, headersOfShard_singleton]
    · rw [SortedMap.get?_insert, if_neg hs, hother s hs, hinv.groups s]
      simp [headersOfShard_singleton, Ne.symm hs]
  · intro s
    by_cases hs : s = m.branch.getFullShardID
    · subst hs
      rw [headersOfShard_append, headersOfShard_singleton, if_pos rfl]
      apply (hinv.linked _).append (List.isChain_singleton m)
      intro x hx y hy
      rw [List.head?_singleton, Option.mem_some_iff] at hy
      subst hy
      rcases hcase with ⟨hnew, -⟩ | ⟨hsame, p, hp, hchild, -⟩
      · rw [hinv.headersOfShard_eq_nil hnew] at hx
        cases hx
      · rw [← hsame, hinv.group_getLast? hp, Option.mem_some_iff] at hx
        subst hx
        exact hchild
    · rw [headersOfShard_append, headersOfShard_singleton, if_neg (Ne.symm hs), List.append_nil]
      exact hinv.linked s

/-- The loop over a block's minor headers, when it goes through, grouped them
by shard in order, each group a chain of children. -/
theorem scanInv_of_foldlM {headers : List MinorBlockHeader} {scan : HeaderScan}
    (h : headers.foldlM bc.scanMinorHeader HeaderScan.init = .ok scan) : ScanInv headers scan :=
  Except.foldlM_inv ScanInv (fun _ _ _ _ _ _ hinv hstep => hinv.step bc hstep) scanInv_init h

end Scan

end RootBlockChain

/-! ### The loop over the shards -/

namespace RootBlockChain

section Shards

variable (bc : RootBlockChain)

/-- A link that passes: the group starts right after the shard's latest header. -/
theorem linkToLatest_ok {prevHeader : Option MinorBlockHeader} {first : MinorBlockHeader}
    {hs : List MinorBlockHeader} (h : linkToLatest prevHeader first = .ok ())
    (hhead : hs.head? = some first) : StartsAfter prevHeader hs := by
  cases prevHeader with
  | none =>
    simp only [linkToLatest] at h
    split at h
    · cases h
    rename_i h0
    intro x hx
    rw [hhead, Option.mem_some_iff] at hx
    subst hx
    exact not_not.mp h0
  | some prevHeader =>
    simp only [linkToLatest] at h
    split at h
    · cases h
    rename_i hlink
    intro x hx
    rw [hhead, Option.mem_some_iff] at hx
    subst hx
    simp only [not_or, not_not] at hlink
    exact ⟨hlink.1.symm, hlink.2.symm⟩

/-- A round that goes through: the group fits, its shard is initialized, it
starts right after the shard's latest header, and its last header becomes the
latest. -/
theorem checkShardHeaders_ok {fullShardIdList : List Nat}
    {latest latest' : SortedMap Nat MinorBlockHeader} {s : Nat} {hs : List MinorBlockHeader}
    (h : bc.checkShardHeaders fullShardIdList latest (s, hs) = .ok latest') :
    hs.length ≤ bc.maxBlocksPerShardInOneRootBlock s ∧ s ∈ fullShardIdList ∧
      StartsAfter (latest.get? s) hs ∧
      ∃ last, hs.getLast? = some last ∧ latest' = latest.insert s last := by
  simp only [checkShardHeaders] at h
  cases hcfg : bc.quarkChainConfig.shards.get? s with
  | none =>
    rw [hcfg] at h
    cases h
  | some _ =>
    rw [hcfg] at h
    simp only [deref, Except.ok_bind] at h
    split at h
    · cases h
    rename_i hmax
    split at h
    · cases h
    rename_i hlist
    cases hhead : hs.head? with
    | none =>
      rw [hhead] at h
      cases h
    | some first =>
      rw [hhead] at h
      obtain ⟨u, hlink, h⟩ := Except.bind_eq_ok.mp h
      cases hlast : hs.getLast? with
      | none =>
        rw [hlast] at h
        cases h
      | some last =>
        rw [hlast] at h
        refine ⟨by omega, not_not.mp hlist, linkToLatest_ok hlink hhead, last, rfl, ?_⟩
        exact (Except.ok.inj h).symm

/-- What the loop over the shards knows after the groups `done`: the shards
it has not reached keep the parent's latest header, and every group it went
through passed its checks and put its last header there. -/
structure ShardsInv (fullShardIdList : List Nat) (latest : SortedMap Nat MinorBlockHeader)
    (done : List (Nat × List MinorBlockHeader)) (acc : SortedMap Nat MinorBlockHeader) : Prop where
  untouched : ∀ s, s ∉ done.map Prod.fst → acc.get? s = latest.get? s
  checked : ∀ s hs, (s, hs) ∈ done →
    acc.get? s = hs.getLast? ∧ hs.length ≤ bc.maxBlocksPerShardInOneRootBlock s ∧
      s ∈ fullShardIdList ∧ StartsAfter (latest.get? s) hs

/-- The loop over the groups of a map, each key met once, when it goes through. -/
theorem shardsInv_of_foldlM {fullShardIdList : List Nat}
    {groups : SortedMap Nat (List MinorBlockHeader)} {latest latest' : SortedMap Nat MinorBlockHeader}
    (h : groups.entries.foldlM (bc.checkShardHeaders fullShardIdList) latest = .ok latest') :
    bc.ShardsInv fullShardIdList latest groups.entries latest' := by
  refine Except.foldlM_inv (bc.ShardsInv fullShardIdList latest) ?_ ⟨fun _ _ => rfl, by simp⟩ h
  rintro pre ⟨k, hs⟩ rest acc acc' hpos hinv hstep
  obtain ⟨hmax, hlist, hstart, last, hlast, rfl⟩ := bc.checkShardHeaders_ok hstep
  -- the keys are increasing, so `k` is met for the first time
  have hfresh : k ∉ pre.map Prod.fst := by
    have hsorted := groups.sorted
    rw [← hpos, List.map_append, List.map_cons, List.pairwise_append] at hsorted
    intro hk
    exact lt_irrefl k (hsorted.2.2 k hk k List.mem_cons_self)
  rw [hinv.untouched k hfresh] at hstart
  constructor
  · intro s hs'
    simp only [List.map_append, List.map_cons, List.map_nil, List.mem_append, List.mem_singleton,
      not_or] at hs'
    rw [SortedMap.get?_insert, if_neg hs'.2]
    exact hinv.untouched s hs'.1
  · intro s hs' hmem
    rw [List.mem_append, List.mem_singleton] at hmem
    rcases hmem with hmem | heq
    · have hne : s ≠ k := fun hsk => hfresh (hsk ▸ List.mem_map_of_mem hmem)
      rw [SortedMap.get?_insert, if_neg hne]
      exact hinv.checked s hs' hmem
    · obtain ⟨rfl, rfl⟩ := Prod.mk.inj heq
      simp [hlast, hmax, hlist, hstart]

end Shards

end RootBlockChain

/-! ### What `ValidateBlock` establishes -/

namespace RootBlockChain

section Validate

variable (bc : RootBlockChain)

/-- A header that passes the engine: its parent is stored, one height below it. -/
theorem verifyHeader_ok {header : RootBlockHeader} (h : bc.verifyHeader header = .ok ()) :
    ∃ parent, bc.blocks header.parentHash = some parent ∧
      parent.header.number = header.number - 1 := by
  simp only [verifyHeader] at h
  split at h
  · cases h
  cases hparent : bc.blocks header.parentHash with
  | none =>
    rw [hparent] at h
    cases h
  | some parent =>
    rw [hparent] at h
    simp only at h
    split at h
    · cases h
    rename_i hnumber
    exact ⟨parent, rfl, not_not.mp hnumber⟩

/-- The two loops together, shard by shard: the group of the shard fits, its
shard is initialized, it continues the parent's latest header of the shard,
and its last header, if any, is the new latest one. -/
theorem shard_of_loops {headers : List MinorBlockHeader} {scan : HeaderScan}
    {fullShardIdList : List Nat} {parentLatest latest : SortedMap Nat MinorBlockHeader}
    (hscan : ScanInv headers scan)
    (hshards : bc.ShardsInv fullShardIdList parentLatest scan.shardIdToMinorHeadersMap.entries latest)
    (s : Nat) :
    (headersOfShard s headers).length ≤ bc.maxBlocksPerShardInOneRootBlock s ∧
      (headersOfShard s headers ≠ [] → s ∈ fullShardIdList) ∧
      Continues (parentLatest.get? s) (headersOfShard s headers) ∧
      latest.get? s = (headersOfShard s headers).getLast?.or (parentLatest.get? s) := by
  have hgroup := hscan.groups s
  by_cases hnil : headersOfShard s headers = []
  · rw [if_pos hnil] at hgroup
    have hkey : s ∉ scan.shardIdToMinorHeadersMap.entries.map Prod.fst := by
      intro hs
      obtain ⟨⟨k, hs'⟩, hmem, rfl⟩ := List.mem_map.mp hs
      rw [← SortedMap.get?_eq_some_iff] at hmem
      rw [hmem] at hgroup
      cases hgroup
    rw [hnil, hshards.untouched s hkey]
    exact ⟨Nat.zero_le _, fun h => absurd rfl h, continues_nil _, rfl⟩
  · rw [if_neg hnil, SortedMap.get?_eq_some_iff] at hgroup
    obtain ⟨hlatest, hmax, hlist, hstart⟩ := hshards.checked s _ hgroup
    obtain ⟨last, hlast⟩ := Option.ne_none_iff_exists'.mp (mt List.getLast?_eq_none_iff.mp hnil)
    refine ⟨hmax, fun _ => hlist, ⟨hstart, hscan.linked s⟩, ?_⟩
    rw [hlatest, hlast, Option.some_or]

/-- What `ValidateBlock` establishes of a block it accepts, with `latest` the
latest headers it writes for the block. -/
structure Accepted (rootBlock : RootBlock) (latest : SortedMap Nat MinorBlockHeader) : Prop where
  new_hash : bc.blocks rootBlock.header.hash = none
  parent : ∃ parent, bc.blocks rootBlock.header.parentHash = some parent ∧
    parent.header.number + 1 = rootBlock.header.number
  ordered : rootBlock.minorBlockHeaders.Pairwise fun a b =>
    a.branch.getFullShardID ≤ b.branch.getFullShardID
  bounded : ∀ s, (headersOfShard s rootBlock.minorBlockHeaders).length ≤
    bc.maxBlocksPerShardInOneRootBlock s
  initialized : ∀ s, headersOfShard s rootBlock.minorBlockHeaders ≠ [] →
    s ∈ bc.quarkChainConfig.getInitializedShardIdsBeforeRootHeight rootBlock.header.number
  continues : ∀ s, Continues ((bc.getLatestMinorBlockHeaders rootBlock.header.parentHash).get? s)
    (headersOfShard s rootBlock.minorBlockHeaders)
  latest_eq : ∀ s, latest.get? s = (headersOfShard s rootBlock.minorBlockHeaders).getLast?.or
    ((bc.getLatestMinorBlockHeaders rootBlock.header.parentHash).get? s)

/-- `ValidateBlock` without `force`, when it accepts a block: the block is
new, and the store it leaves holds the latest headers it computed. -/
theorem validateBlock_ok {rootBlock : RootBlock} {bc' : RootBlockChain}
    (h : bc.validateBlock rootBlock false = .ok bc') :
    ∃ latest, bc' = bc.setLatestMinorBlockHeaders rootBlock.header.hash latest ∧
      bc.Accepted rootBlock latest := by
  simp only [validateBlock] at h
  split at h
  · cases h
  rename_i hheight
  split at h
  · cases h
  rename_i hknown
  obtain ⟨u, hverify, h⟩ := Except.bind_eq_ok.mp h
  obtain ⟨parent, hparent, hnumber⟩ := bc.verifyHeader_ok hverify
  rw [hparent] at h
  simp only at h
  obtain ⟨scan, hfold, h⟩ := Except.bind_eq_ok.mp h
  obtain ⟨u', -, h⟩ := Except.bind_eq_ok.mp h
  obtain ⟨latest, hshards, h⟩ := Except.bind_eq_ok.mp h
  refine ⟨latest, (Except.ok.inj h).symm, ?_⟩
  have hscan := bc.scanInv_of_foldlM hfold
  have hloops := bc.shard_of_loops hscan (bc.shardsInv_of_foldlM hshards)
  constructor
  · simpa [hasBlock] using hknown
  · exact ⟨parent, hparent, by omega⟩
  · exact hscan.ordered
  · exact fun s => (hloops s).1
  · exact fun s => (hloops s).2.1
  · exact fun s => (hloops s).2.2.1
  · exact fun s => (hloops s).2.2.2

end Validate

end RootBlockChain

/-! ### Root chains in the store -/

namespace RootBlockChain

section Chain

variable (bc : RootBlockChain)

theorem rootChain_of_some {hash : Hash} {block : RootBlock} (hb : bc.blocks hash = some block) :
    bc.rootChain hash = rootChainFrom bc.blocks (block.header.number + 1) hash := by
  simp [rootChain, hb]

/-- The chain of a block is the chain of its parent, one height below, and the block. -/
theorem rootChain_of_parent {hash : Hash} {block parent : RootBlock}
    (hb : bc.blocks hash = some block) (hparent : bc.blocks block.header.parentHash = some parent)
    (hnumber : parent.header.number + 1 = block.header.number) :
    bc.rootChain hash = bc.rootChain block.header.parentHash ++ [block] := by
  rw [bc.rootChain_of_some hb, rootChainFrom_succ_of_some _ hb, bc.rootChain_of_some hparent,
    hnumber]

theorem confirmedMinorBlockHeaders_of_parent {hash : Hash} {block parent : RootBlock}
    (hb : bc.blocks hash = some block) (hparent : bc.blocks block.header.parentHash = some parent)
    (hnumber : parent.header.number + 1 = block.header.number) (s : Nat) :
    bc.confirmedMinorBlockHeaders hash s =
      bc.confirmedMinorBlockHeaders block.header.parentHash s ++
        headersOfShard s block.minorBlockHeaders := by
  simp [confirmedMinorBlockHeaders, bc.rootChain_of_parent hb hparent hnumber]

/-- A block at height `0` is the whole of its chain. -/
theorem confirmedMinorBlockHeaders_of_number_zero {hash : Hash} {block : RootBlock}
    (hb : bc.blocks hash = some block) (h0 : block.header.number = 0) (s : Nat) :
    bc.confirmedMinorBlockHeaders hash s = headersOfShard s block.minorBlockHeaders := by
  simp [confirmedMinorBlockHeaders, bc.rootChain_of_some hb, h0, rootChainFrom, hb]

/-- What holds of every store that a run reaches from the genesis. -/
structure Inv : Prop where
  genesis : ∀ {hash block}, bc.blocks hash = some block → block.header.number = 0 →
    block.minorBlockHeaders = [] ∧ bc.latestMinorBlockHeaders hash = []
  parent : ∀ {hash block n}, bc.blocks hash = some block → block.header.number = n + 1 →
    ∃ parent, bc.blocks block.header.parentHash = some parent ∧ parent.header.number = n
  ordered : ∀ {hash block}, bc.blocks hash = some block →
    block.minorBlockHeaders.Pairwise fun a b => a.branch.getFullShardID ≤ b.branch.getFullShardID
  bounded : ∀ {hash block}, bc.blocks hash = some block → ∀ s,
    (headersOfShard s block.minorBlockHeaders).length ≤ bc.maxBlocksPerShardInOneRootBlock s
  contiguous : ∀ {hash block}, bc.blocks hash = some block → ∀ s,
    ContiguousFromGenesis (bc.confirmedMinorBlockHeaders hash s)
  latest : ∀ {hash block}, bc.blocks hash = some block → ∀ s,
    (bc.getLatestMinorBlockHeaders hash).get? s = (bc.confirmedMinorBlockHeaders hash s).getLast?

variable {bc}

/-- Writing a new block leaves the stored ones where they were. -/
theorem writeBlock_blocks_of_some {block b : RootBlock} {hash : Hash}
    (hnew : bc.blocks block.header.hash = none) (hb : bc.blocks hash = some b) :
    (bc.writeBlock block).blocks hash = some b := by
  have hne : hash ≠ block.header.hash := by
    rintro rfl
    rw [hnew] at hb
    cases hb
  rw [writeBlock_blocks, if_neg hne, hb]

/-- Writing a new block changes no walk down from a stored block, as long as
the walk stays above the genesis. -/
theorem rootChainFrom_writeBlock (hinv : bc.Inv) {block : RootBlock}
    (hnew : bc.blocks block.header.hash = none) :
    ∀ fuel {hash : Hash} {b : RootBlock}, bc.blocks hash = some b → fuel ≤ b.header.number + 1 →
      rootChainFrom (bc.writeBlock block).blocks fuel hash = rootChainFrom bc.blocks fuel hash
  | 0, _, _, _, _ => rfl
  | fuel + 1, hash, b, hb, hfuel => by
    rw [rootChainFrom_succ_of_some _ (writeBlock_blocks_of_some hnew hb),
      rootChainFrom_succ_of_some _ hb]
    cases fuel with
    | zero => rfl
    | succ fuel =>
      obtain ⟨parent, hparent, hpn⟩ := hinv.parent hb (n := b.header.number - 1) (by omega)
      rw [rootChainFrom_writeBlock hinv hnew (fuel + 1) hparent (by omega)]

theorem confirmedMinorBlockHeaders_writeBlock (hinv : bc.Inv) {block b : RootBlock} {hash : Hash}
    (hnew : bc.blocks block.header.hash = none) (hb : bc.blocks hash = some b) (s : Nat) :
    (bc.writeBlock block).confirmedMinorBlockHeaders hash s = bc.confirmedMinorBlockHeaders hash s := by
  simp only [confirmedMinorBlockHeaders, (bc.writeBlock block).rootChain_of_some
    (writeBlock_blocks_of_some hnew hb), bc.rootChain_of_some hb,
    rootChainFrom_writeBlock hinv hnew _ hb le_rfl]

/-- The store `NewRootBlockChain` starts from. -/
theorem inv_new {quarkChainConfig : Config.QuarkChainConfig} {maxBlocks : Nat → Nat}
    {contain : Hash → Bool} {genesisHeader : RootBlockHeader}
    (h : RootBlockChain.new quarkChainConfig maxBlocks contain genesisHeader = .ok bc) : bc.Inv := by
  simp only [RootBlockChain.new] at h
  split at h
  · cases h
  rename_i h0
  cases h
  -- the only stored block is the genesis, at height `0` and with no minor header
  have hgenesis : ∀ {hash block}, (Function.update (fun _ => none) genesisHeader.hash
      (some ⟨genesisHeader, []⟩) : Hash → Option RootBlock) hash = some block →
      block = ⟨genesisHeader, []⟩ := by
    intro hash block hb
    rw [Function.update_apply] at hb
    split at hb
    · exact (Option.some.inj hb).symm
    · cases hb
  constructor
  · intro hash block hb _
    rw [hgenesis hb]
    exact ⟨rfl, rfl⟩
  · intro hash block n hb hn
    rw [hgenesis hb] at hn
    simp only [not_not] at h0
    dsimp only at hn
    omega
  · intro hash block hb
    rw [hgenesis hb]
    exact List.Pairwise.nil
  · intro hash block hb s
    rw [hgenesis hb]
    exact Nat.zero_le _
  · intro hash block hb s
    rw [confirmedMinorBlockHeaders_of_number_zero _ hb (by rw [hgenesis hb]; simpa using h0),
      hgenesis hb]
    exact continues_nil none
  · intro hash block hb s
    rw [confirmedMinorBlockHeaders_of_number_zero _ hb (by rw [hgenesis hb]; simpa using h0),
      hgenesis hb]
    simp [RootBlockChain.getLatestMinorBlockHeaders]

/-- Latest headers written for a block not stored change nothing the invariant reads. -/
theorem Inv.setLatestMinorBlockHeaders (hinv : bc.Inv) {hash : Hash}
    (hnew : bc.blocks hash = none) (latest : SortedMap Nat MinorBlockHeader) :
    (bc.setLatestMinorBlockHeaders hash latest).Inv := by
  have hne : ∀ {hash' b}, bc.blocks hash' = some b → hash' ≠ hash := by
    rintro hash' b hb rfl
    rw [hnew] at hb
    cases hb
  constructor
  · intro hash' block hb h0
    rw [setLatestMinorBlockHeaders_latestMinorBlockHeaders_of_ne _ _ (hne hb)]
    exact hinv.genesis hb h0
  · exact hinv.parent
  · exact hinv.ordered
  · exact hinv.bounded
  · exact hinv.contiguous
  · intro hash' block hb s
    rw [getLatestMinorBlockHeaders_setLatestMinorBlockHeaders_of_ne _ _ (hne hb)]
    exact hinv.latest hb s

/-- The block `InsertChain` writes after `ValidateBlock` accepted it: its
headers continue, in every shard, the chain its parent confirmed, and the
latest headers written for it end the longer chain. -/
theorem Inv.insert (hinv : bc.Inv) {rootBlock : RootBlock} {latest : SortedMap Nat MinorBlockHeader}
    (hacc : bc.Accepted rootBlock latest) :
    ((bc.setLatestMinorBlockHeaders rootBlock.header.hash latest).writeBlock rootBlock).Inv := by
  obtain ⟨parent, hparent, hnumber⟩ := hacc.parent
  have hinv₁ := hinv.setLatestMinorBlockHeaders hacc.new_hash latest
  have hnew₁ : (bc.setLatestMinorBlockHeaders rootBlock.header.hash latest).blocks
      rootBlock.header.hash = none := hacc.new_hash
  -- the new block and its parent in the new store
  have hR : ((bc.setLatestMinorBlockHeaders rootBlock.header.hash latest).writeBlock
      rootBlock).blocks rootBlock.header.hash = some rootBlock := by simp
  have hP : ((bc.setLatestMinorBlockHeaders rootBlock.header.hash latest).writeBlock
      rootBlock).blocks rootBlock.header.parentHash = some parent :=
    writeBlock_blocks_of_some hnew₁ hparent
  -- the shard chains the new block sees
  have hconfirmed : ∀ s, ((bc.setLatestMinorBlockHeaders rootBlock.header.hash latest).writeBlock
      rootBlock).confirmedMinorBlockHeaders rootBlock.header.hash s =
      bc.confirmedMinorBlockHeaders rootBlock.header.parentHash s ++
        headersOfShard s rootBlock.minorBlockHeaders := by
    intro s
    rw [confirmedMinorBlockHeaders_of_parent _ hR hP hnumber,
      confirmedMinorBlockHeaders_writeBlock hinv₁ hnew₁ hparent]
    rfl
  have hlatest : ∀ s, latest.get? s =
      (bc.confirmedMinorBlockHeaders rootBlock.header.parentHash s ++
        headersOfShard s rootBlock.minorBlockHeaders).getLast? := by
    intro s
    rw [hacc.latest_eq s, hinv.latest hparent s, List.getLast?_append]
  have hkey : ∀ e ∈ latest.entries, e.2.branch.getFullShardID = e.1 := by
    intro e he
    rw [← SortedMap.get?_eq_some_iff, hlatest] at he
    obtain ⟨pre, hpre⟩ := List.getLast?_eq_some_iff.mp he
    have hmem : e.2 ∈ headersOfShard e.1 ((bc.rootChain rootBlock.header.parentHash).flatMap
        RootBlock.minorBlockHeaders ++ rootBlock.minorBlockHeaders) := by
      rw [headersOfShard_append]
      exact hpre ▸ List.mem_append_right pre List.mem_cons_self
    exact fullShardId_of_mem_headersOfShard hmem
  constructor
  · intro hash block hb h0
    by_cases hh : hash = rootBlock.header.hash
    · subst hh
      rw [hR] at hb
      cases hb
      omega
    · rw [writeBlock_blocks, if_neg hh] at hb
      exact hinv₁.genesis hb h0
  · intro hash block n hb hn
    by_cases hh : hash = rootBlock.header.hash
    · subst hh
      rw [hR] at hb
      cases hb
      exact ⟨parent, hP, by omega⟩
    · rw [writeBlock_blocks, if_neg hh] at hb
      obtain ⟨p, hp, hpn⟩ := hinv₁.parent hb hn
      exact ⟨p, writeBlock_blocks_of_some hnew₁ hp, hpn⟩
  · intro hash block hb
    by_cases hh : hash = rootBlock.header.hash
    · subst hh
      rw [hR] at hb
      cases hb
      exact hacc.ordered
    · rw [writeBlock_blocks, if_neg hh] at hb
      exact hinv₁.ordered hb
  · intro hash block hb s
    by_cases hh : hash = rootBlock.header.hash
    · subst hh
      rw [hR] at hb
      cases hb
      exact hacc.bounded s
    · rw [writeBlock_blocks, if_neg hh] at hb
      exact hinv₁.bounded hb s
  · intro hash block hb s
    by_cases hh : hash = rootBlock.header.hash
    · subst hh
      rw [hconfirmed s]
      apply (hinv.contiguous hparent s).append
      rw [Option.or_none, ← hinv.latest hparent s]
      exact hacc.continues s
    · rw [writeBlock_blocks, if_neg hh] at hb
      rw [confirmedMinorBlockHeaders_writeBlock hinv₁ hnew₁ hb]
      exact hinv₁.contiguous hb s
  · intro hash block hb s
    by_cases hh : hash = rootBlock.header.hash
    · subst hh
      rw [hconfirmed s, getLatestMinorBlockHeaders_writeBlock,
        get?_getLatestMinorBlockHeaders_setLatestMinorBlockHeaders _ _ hkey, hlatest]
    · rw [writeBlock_blocks, if_neg hh] at hb
      rw [confirmedMinorBlockHeaders_writeBlock hinv₁ hnew₁ hb, getLatestMinorBlockHeaders_writeBlock]
      exact hinv₁.latest hb s

end Chain

end RootBlockChain

/-- What the store goes through after `NewRootBlockChain`. -/
inductive Step : RootBlockChain → RootBlockChain → Prop
  /-- `InsertChain`: the block passes `ValidateBlock`, then `WriteBlockWithState`
  stores it. -/
  | insert {bc bc' : RootBlockChain} (rootBlock : RootBlock)
      (h : bc.validateBlock rootBlock false = .ok bc') : Step bc (bc'.writeBlock rootBlock)
  /-- `insertChain` refuses a validated block before writing it (it is too old):
  the latest headers `ValidateBlock` wrote stay. -/
  | validate {bc bc' : RootBlockChain} (rootBlock : RootBlock)
      (h : bc.validateBlock rootBlock false = .ok bc') : Step bc bc'
  /-- `AddValidatedMinorBlockHeader`: a shard reports a minor block it validated. -/
  | addValidatedMinorBlockHeader (bc : RootBlockChain) (hash : Hash) :
      Step bc { bc with
        containMinorBlockByHash := Function.update bc.containMinorBlockByHash hash true }

/-! ### Every run from the genesis -/

section Runs

open RootBlockChain

/-- Each step of the store keeps the invariant. -/
theorem Step.inv {bc bc' : RootBlockChain} (hstep : Step bc bc') (hinv : bc.Inv) : bc'.Inv := by
  cases hstep with
  | insert rootBlock h =>
    obtain ⟨latest, rfl, hacc⟩ := bc.validateBlock_ok h
    exact hinv.insert hacc
  | validate rootBlock h =>
    obtain ⟨latest, rfl, hacc⟩ := bc.validateBlock_ok h
    exact hinv.setLatestMinorBlockHeaders hacc.new_hash latest
  | addValidatedMinorBlockHeader hash =>
    exact ⟨hinv.genesis, hinv.parent, hinv.ordered, hinv.bounded, hinv.contiguous, hinv.latest⟩

/-- Every store a run reaches from `NewRootBlockChain` keeps the invariant. -/
theorem inv_of_run {quarkChainConfig : Config.QuarkChainConfig} {maxBlocks : Nat → Nat}
    {contain : Hash → Bool} {genesisHeader : RootBlockHeader} {bc₀ bc : RootBlockChain}
    (hnew : RootBlockChain.new quarkChainConfig maxBlocks contain genesisHeader = .ok bc₀)
    (hrun : ReflTransGen Step bc₀ bc) : bc.Inv := by
  induction hrun with
  | refl => exact inv_new hnew
  | tail _ hstep ih => exact hstep.inv ih

/-- Along every run of the root chain from its genesis, every stored root
block confirms, in every shard, one chain of minor blocks from height `0`;
its own headers come in order of full shard id, at most
`MaxBlocksPerShardInOneRootBlock` of each shard; and the latest headers stored
for it give each shard the last header of that chain. -/
theorem confirmed_shard_chain_contiguous {quarkChainConfig : Config.QuarkChainConfig}
    {maxBlocks : Nat → Nat} {contain : Hash → Bool} {genesisHeader : RootBlockHeader}
    {bc₀ bc : RootBlockChain}
    (hnew : RootBlockChain.new quarkChainConfig maxBlocks contain genesisHeader = .ok bc₀)
    (hrun : ReflTransGen Step bc₀ bc) {hash : Hash} {rootBlock : RootBlock}
    (hstored : bc.blocks hash = some rootBlock) (s : Nat) :
    ContiguousFromGenesis (bc.confirmedMinorBlockHeaders hash s) ∧
      rootBlock.minorBlockHeaders.Pairwise
        (fun a b => a.branch.getFullShardID ≤ b.branch.getFullShardID) ∧
      (headersOfShard s rootBlock.minorBlockHeaders).length ≤ bc.maxBlocksPerShardInOneRootBlock s ∧
      (bc.getLatestMinorBlockHeaders hash).get? s = (bc.confirmedMinorBlockHeaders hash s).getLast? := by
  have hinv := inv_of_run hnew hrun
  exact ⟨hinv.contiguous hstored s, hinv.ordered hstored, hinv.bounded hstored s,
    hinv.latest hstored s⟩

end Runs

section RootChainExample

/-- The root chain at its genesis, in a cluster with shard `1`, with room for
eight headers of a shard in a root block and every minor block validated. -/
def sampleRootStore : RootBlockChain :=
  ⟨oneShardConfig, fun _ => 8, Function.update (fun _ => none) 10 (some ⟨genesisRoot.header, []⟩),
    fun _ => true, fun _ => []⟩

/-- The first root block: it confirms the first two blocks of shard `1`. -/
def shardConfirmingRoot : RootBlock :=
  ⟨(plainRoot 11 1 10 2).header, [genesisMinor.header, firstMinor.header]⟩

/-- The store once `shardConfirmingRoot` is inserted. -/
def shardConfirmedStore : RootBlockChain :=
  (sampleRootStore.setLatestMinorBlockHeaders 11 (SortedMap.empty.insert 1 firstMinor.header)).writeBlock
    shardConfirmingRoot

theorem shardConfirmingRoot_confirmed_chain :
    ContiguousFromGenesis (shardConfirmedStore.confirmedMinorBlockHeaders 11 1) ∧
      shardConfirmingRoot.minorBlockHeaders.Pairwise
        (fun a b => a.branch.getFullShardID ≤ b.branch.getFullShardID) ∧
      (headersOfShard 1 shardConfirmingRoot.minorBlockHeaders).length ≤
        shardConfirmedStore.maxBlocksPerShardInOneRootBlock 1 ∧
      (shardConfirmedStore.getLatestMinorBlockHeaders 11).get? 1 =
        (shardConfirmedStore.confirmedMinorBlockHeaders 11 1).getLast? :=
  confirmed_shard_chain_contiguous
    (show RootBlockChain.new oneShardConfig (fun _ => 8) (fun _ => true) genesisRoot.header =
      .ok sampleRootStore from rfl)
    (ReflTransGen.single (Step.insert shardConfirmingRoot rfl)) rfl 1

end RootChainExample

end Core
