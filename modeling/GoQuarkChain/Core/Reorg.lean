import GoQuarkChain.Core.TxIndex
import GoQuarkChain.Lib.ExceptState

/-!
# The transaction index across reorganisations

`WriteBlockWithState` stores a block with the deposits it confirmed
(`putMinorBlock`). When the block is to become the tip and does not extend the
current block, it first calls `reorg`; then it puts the block's index and makes
it the current block. `reorg` walks the higher of the old and the new block down
to the other's height, then both down to their common block, or to height `0`
when there is none; it removes the index of every block left on the old branch,
lowest first, and inserts the blocks of the new branch, lowest first, putting the
index of each. `AddRootBlock` moves the tip to a block its root block confirms
and, when the tip moved, rewrites the index with `reWriteBlockIndexTo`.

When either branch is empty `reorg` calls `setHead`, which rewinds the header
chain and deletes the block bodies above the new head: it does not touch the
index, and the model keeps the current block where the caller puts it. A walk into
a deleted body fails before the index changes, so the model keeps every body.
The genesis reset of `AddRootBlock` is not modelled. Block numbers are those of
validated headers, one above the parent's.
-/

namespace Core

open State KeyValue

/-- The blocks, confirmed deposit lists, current block and index of a minor chain. -/
structure TxIndexChain where
  blocks : Hash → Option TxBlock
  xShardLists : Hash → Option (List CrossShardTransactionDeposit)
  currentBlock : TxBlock
  index : TxIndex

def errInvalidOldChain : Failure := .error "Invalid old chain"
def errInvalidNewChain : Failure := .error "Invalid new chain"

/-- `panic(err)` on an error a callee returned. -/
def Failure.asPanic : Failure → Failure
  | .error msg => .panic msg
  | failure => failure

namespace TxIndexChain

/-- `InitGenesisState` on an empty database: the genesis block, with no transactions
and no deposits, is the current block. -/
def new (genesis : MinorBlockHeader) : TxIndexChain where
  blocks := put genesis.hash ⟨genesis, []⟩ fun _ => none
  xShardLists := put genesis.hash [] fun _ => none
  currentBlock := ⟨genesis, []⟩
  index := fun _ => none

variable (bc : TxIndexChain)

def putMinorBlock (mBlock : TxBlock) (xShardReceiveTxList : List CrossShardTransactionDeposit) :
    TxIndexChain :=
  { bc with
    blocks := if (bc.blocks mBlock.header.hash).isSome then bc.blocks
      else put mBlock.header.hash mBlock bc.blocks
    xShardLists := put mBlock.header.hash xShardReceiveTxList bc.xShardLists }

/-- `insert`: the block becomes the head. -/
def insert (block : TxBlock) : TxIndexChain := { bc with currentBlock := block }

@[simp] theorem putMinorBlock_currentBlock (mBlock : TxBlock)
    (xShardReceiveTxList : List CrossShardTransactionDeposit) :
    (bc.putMinorBlock mBlock xShardReceiveTxList).currentBlock = bc.currentBlock := rfl

@[simp] theorem putMinorBlock_index (mBlock : TxBlock)
    (xShardReceiveTxList : List CrossShardTransactionDeposit) :
    (bc.putMinorBlock mBlock xShardReceiveTxList).index = bc.index := rfl

end TxIndexChain

/-- The first loop of `reorg`: walk `block` down to height `number`, collecting
the blocks passed. -/
def reduceChain (blocks : Hash → Option TxBlock) (err : Failure) :
    Nat → TxBlock → Nat → List TxBlock → Except Failure (TxBlock × List TxBlock)
  | 0, _, _, _ => .error .outOfFuel
  | fuel + 1, block, number, chain =>
    if block.header.number = number then .ok (block, chain)
    else
      match blocks block.header.parentHash with
      | none => .error err
      | some parent => reduceChain blocks err fuel parent number (chain ++ [block])

/-- Reduce whichever of the two blocks is higher. -/
def reduceHigher (blocks : Hash → Option TxBlock) (oldBlock newBlock : TxBlock) :
    Except Failure (TxBlock × TxBlock × List TxBlock × List TxBlock) := do
  if oldBlock.header.number > newBlock.header.number then
    let (oldBlock, oldChain) ← reduceChain blocks errInvalidOldChain
      (oldBlock.header.number + 1) oldBlock newBlock.header.number []
    pure (oldBlock, newBlock, oldChain, [])
  else
    let (newBlock, newChain) ← reduceChain blocks errInvalidNewChain
      (newBlock.header.number + 1) newBlock oldBlock.header.number []
    pure (oldBlock, newBlock, [], newChain)

/-- The second loop of `reorg`: step both blocks down together until they meet,
or until one is at height `0` (no common block). -/
def findCommon (blocks : Hash → Option TxBlock) :
    Nat → TxBlock → TxBlock → List TxBlock → List TxBlock →
      Except Failure (List TxBlock × List TxBlock)
  | 0, _, _, _, _ => .error .outOfFuel
  | fuel + 1, oldBlock, newBlock, oldChain, newChain =>
    if oldBlock.header.hash = newBlock.header.hash then .ok (oldChain, newChain)
    else
      let oldChain := oldChain ++ [oldBlock]
      let newChain := newChain ++ [newBlock]
      if oldBlock.header.number = 0 ∨ newBlock.header.number = 0 then .ok (oldChain, newChain)
      else
        match blocks oldBlock.header.parentHash, blocks newBlock.header.parentHash with
        | none, _ => .error errInvalidOldChain
        | _, none => .error errInvalidNewChain
        | some oldBlock, some newBlock => findCommon blocks fuel oldBlock newBlock oldChain newChain

/-- One round of the insertion loop of `reorg`: insert the block, then put its index. -/
def insertBlock (cfg : IndexConfig) (bc : TxIndexChain) (block : TxBlock) :
    Except Failure TxIndexChain := do
  let bc := bc.insert block
  let index ← putTxIndexFromBlock cfg bc.xShardLists bc.index block
  pure { bc with index := index }

/-- `reorg`. -/
def reorg (cfg : IndexConfig) (bc : TxIndexChain) (oldBlock newBlock : TxBlock) :
    Except Failure TxIndexChain := do
  let (oldBlock, newBlock, oldChain, newChain) ← reduceHigher bc.blocks oldBlock newBlock
  let (oldChain, newChain) ← findCommon bc.blocks (oldBlock.header.number + 1) oldBlock newBlock
    oldChain newChain
  let index ← oldChain.reverse.foldlM (removeTxIndexFromBlock cfg bc.xShardLists) bc.index
  newChain.reverse.foldlM (insertBlock cfg) { bc with index := index }

/-- `WriteBlockWithState`, as far as blocks, deposit lists, the tip and the index go. -/
def writeBlockWithState (cfg : IndexConfig) (bc : TxIndexChain) (block : TxBlock)
    (xShardList : List CrossShardTransactionDeposit) (updateTip : Bool) :
    Except Failure TxIndexChain := do
  let currentBlock := bc.currentBlock
  let bc := bc.putMinorBlock block xShardList
  if updateTip then
    let bc ← if block.header.parentHash ≠ currentBlock.header.hash then
      reorg cfg bc currentBlock block else pure bc
    match putTxIndexFromBlock cfg bc.xShardLists bc.index block with
    | .ok index => pure ({ bc with index := index }.insert block)
    | .error e => throw e.asPanic
  else pure bc

/-- `reWriteBlockIndexTo`: the old block defaults to the current one. -/
def reWriteBlockIndexTo (cfg : IndexConfig) (bc : TxIndexChain) (oldBlock : Option TxBlock)
    (newBlock : TxBlock) : Except Failure TxIndexChain :=
  reorg cfg bc (oldBlock.getD bc.currentBlock) newBlock

/-- The end of `AddRootBlock`, once it has found the new tip: the tip moves there
and, if it moved, the index is rewritten from the original tip. -/
def addRootBlockRewind (cfg : IndexConfig) (bc : TxIndexChain) (newBlock : TxBlock) :
    Except Failure TxIndexChain :=
  let origHeaderTip := bc.currentBlock
  let bc := { bc with currentBlock := newBlock }
  if newBlock.header.hash ≠ origHeaderTip.header.hash then
    reWriteBlockIndexTo cfg bc (bc.blocks origHeaderTip.header.hash) newBlock
  else .ok bc

/-! ## Chains in the store -/

/-- The blocks from the one stored at `hash` down `fuel` parent links, oldest first. -/
def chainFrom (blocks : Hash → Option TxBlock) : Nat → Hash → List TxBlock
  | 0, _ => []
  | fuel + 1, hash =>
    match blocks hash with
    | none => []
    | some block => chainFrom blocks fuel block.header.parentHash ++ [block]

namespace TxIndexChain

variable (bc : TxIndexChain)

/-- The chain of the block stored at `hash`, from height `0` up to it. -/
def chainTo (hash : Hash) : List TxBlock :=
  match bc.blocks hash with
  | none => []
  | some block => chainFrom bc.blocks (block.header.number + 1) hash

/-- The deposits stored for a block. -/
def depositsOf (block : TxBlock) : List CrossShardTransactionDeposit :=
  (bc.xShardLists block.header.hash).getD []

/-- The index of a chain built from nothing, as one batch of the blocks' entries. -/
def chainIndex (cfg : IndexConfig) (chain : List TxBlock) : TxIndex :=
  writeEntries (chain.flatMap fun b => txIndexEntries cfg b (bc.depositsOf b)) fun _ => none

/-- What holds of every chain a run reaches: blocks are stored under their hash
with their deposits, every block above height `0` has its parent one below, and
the current block is stored. -/
structure Inv : Prop where
  hash : ∀ {h b}, bc.blocks h = some b → b.header.hash = h
  lists : ∀ {h b}, bc.blocks h = some b → ∃ deposits, bc.xShardLists h = some deposits
  parent : ∀ {h b n}, bc.blocks h = some b → b.header.number = n + 1 →
    ∃ p, bc.blocks b.header.parentHash = some p ∧ p.header.number = n
  current : bc.blocks bc.currentBlock.header.hash = some bc.currentBlock

end TxIndexChain

namespace TxIndexChain

variable {bc : TxIndexChain}

theorem chainFrom_succ_of_some (blocks : Hash → Option TxBlock) {hash : Hash} {block : TxBlock}
    (hb : blocks hash = some block) (fuel : Nat) :
    chainFrom blocks (fuel + 1) hash = chainFrom blocks fuel block.header.parentHash ++ [block] := by
  simp [chainFrom, hb]

theorem chainTo_of_some {hash : Hash} {block : TxBlock} (hb : bc.blocks hash = some block) :
    bc.chainTo hash = chainFrom bc.blocks (block.header.number + 1) hash := by
  simp [chainTo, hb]

theorem chainTo_of_number_zero {hash : Hash} {block : TxBlock} (hb : bc.blocks hash = some block)
    (h0 : block.header.number = 0) : bc.chainTo hash = [block] := by
  simp [chainTo_of_some hb, h0, chainFrom, hb]

/-- The chain of a block is its parent's chain and the block. -/
theorem chainTo_of_parent {hash : Hash} {block parent : TxBlock}
    (hb : bc.blocks hash = some block) (hparent : bc.blocks block.header.parentHash = some parent)
    (hnumber : parent.header.number + 1 = block.header.number) :
    bc.chainTo hash = bc.chainTo block.header.parentHash ++ [block] := by
  rw [chainTo_of_some hb, ← hnumber, chainFrom_succ_of_some _ hb, chainTo_of_some hparent]

theorem getLast?_chainTo {hash : Hash} {block : TxBlock} (hb : bc.blocks hash = some block) :
    (bc.chainTo hash).getLast? = some block := by
  rw [chainTo_of_some hb, chainFrom_succ_of_some _ hb, List.getLast?_append_of_ne_nil _ (by simp)]
  rfl

section Walk

variable (hinv : bc.Inv)
include hinv

theorem Inv.stored_parent {block parent : TxBlock}
    (hparent : bc.blocks block.header.parentHash = some parent) :
    bc.blocks parent.header.hash = some parent := by
  rw [hinv.hash hparent]
  exact hparent

/-- Every block of a stored block's chain is stored, at most as high, and the chain
starts at height `0`. -/
theorem chainTo_spec : ∀ n {hash : Hash} {block : TxBlock}, bc.blocks hash = some block →
    block.header.number = n →
    (∀ a ∈ bc.chainTo hash, bc.blocks a.header.hash = some a ∧ a.header.number ≤ n) ∧
      (bc.chainTo hash).head?.map (·.header.number) = some 0
  | 0, hash, block, hb, hn => by
    rw [chainTo_of_number_zero hb hn]
    refine ⟨?_, by simp [hn]⟩
    intro a ha
    rw [List.mem_singleton.mp ha, hinv.hash hb]
    exact ⟨hb, by omega⟩
  | n + 1, hash, block, hb, hn => by
    obtain ⟨p, hp, hpn⟩ := hinv.parent hb hn
    obtain ⟨hmem, hhead⟩ := chainTo_spec n hp hpn
    rw [chainTo_of_parent hb hp (by omega)]
    refine ⟨?_, ?_⟩
    · intro a ha
      rcases List.mem_append.mp ha with ha | ha
      · obtain ⟨hs, hle⟩ := hmem a ha
        exact ⟨hs, by omega⟩
      · rw [List.mem_singleton.mp ha, hinv.hash hb]
        exact ⟨hb, by omega⟩
    · obtain ⟨g, rest, hgr⟩ : ∃ g rest, bc.chainTo block.header.parentHash = g :: rest := by
        cases hc : bc.chainTo block.header.parentHash with
        | nil => simp [hc] at hhead
        | cons g rest => exact ⟨g, rest, rfl⟩
      rw [hgr] at hhead ⊢
      exact hhead

/-- Heights strictly increase along a chain. -/
theorem chainTo_pairwise_number : ∀ n {hash : Hash} {block : TxBlock},
    bc.blocks hash = some block → block.header.number = n →
    (bc.chainTo hash).Pairwise fun a b => a.header.number < b.header.number
  | 0, hash, block, hb, hn => by simp [chainTo_of_number_zero hb hn]
  | n + 1, hash, block, hb, hn => by
    obtain ⟨p, hp, hpn⟩ := hinv.parent hb hn
    rw [chainTo_of_parent hb hp (by omega), List.pairwise_append]
    refine ⟨chainTo_pairwise_number n hp hpn, List.pairwise_singleton _ _, ?_⟩
    intro a ha b hb'
    rw [List.mem_singleton.mp hb']
    have := ((chainTo_spec hinv n hp hpn).1 a ha).2
    omega

/-- The first loop of `reorg` reaches the height it aims at. -/
theorem reduceChain_ok (err : Failure) :
    ∀ fuel {b : TxBlock} {n : Nat} (acc : List TxBlock), bc.blocks b.header.hash = some b →
      n ≤ b.header.number → b.header.number - n < fuel →
      ∃ a path, reduceChain bc.blocks err fuel b n acc = .ok (a, acc ++ path) ∧
        bc.blocks a.header.hash = some a ∧ a.header.number = n ∧
        bc.chainTo b.header.hash = bc.chainTo a.header.hash ++ path.reverse
  | 0, _, _, _, _, _, hfuel => absurd hfuel (Nat.not_lt_zero _)
  | fuel + 1, b, n, acc, hb, hle, hfuel => by
    by_cases heq : b.header.number = n
    · exact ⟨b, [], by simp [reduceChain, heq], hb, heq, by simp⟩
    · obtain ⟨p, hp, hpn⟩ := hinv.parent hb (n := b.header.number - 1) (by omega)
      obtain ⟨a, path, hrun, ha, han, hchain⟩ :=
        reduceChain_ok err fuel (n := n) (acc ++ [b]) (hinv.stored_parent hp) (by omega) (by omega)
      refine ⟨a, b :: path, ?_, ha, han, ?_⟩
      · simp [reduceChain, heq, hp, hrun]
      · rw [chainTo_of_parent hb hp (by omega), ← hinv.hash hp, hchain]
        simp

/-- The second loop of `reorg` takes two blocks of one height down to where their
chains part. -/
theorem findCommon_ok :
    ∀ fuel {o n : TxBlock} (oc nc : List TxBlock), bc.blocks o.header.hash = some o →
      bc.blocks n.header.hash = some n → o.header.number = n.header.number →
      o.header.number < fuel →
      ∃ po pn P, findCommon bc.blocks fuel o n oc nc = .ok (oc ++ po, nc ++ pn) ∧
        bc.chainTo o.header.hash = P ++ po.reverse ∧ bc.chainTo n.header.hash = P ++ pn.reverse
  | 0, _, _, _, _, _, _, _, hfuel => absurd hfuel (Nat.not_lt_zero _)
  | fuel + 1, o, n, oc, nc, ho, hn, hon, hfuel => by
    by_cases hh : o.header.hash = n.header.hash
    · -- they meet: one stored block
      have hsame : o = n := by
        rw [hh] at ho
        exact Option.some.inj (ho.symm.trans hn)
      subst hsame
      exact ⟨[], [], bc.chainTo o.header.hash, by simp [findCommon], by simp, by simp⟩
    · by_cases h0 : o.header.number = 0 ∨ n.header.number = 0
      · -- both at height 0 and apart: no common block
        refine ⟨[o], [n], [], by simp [findCommon, hh, h0], ?_, ?_⟩
        · simp [chainTo_of_number_zero ho (by omega)]
        · simp [chainTo_of_number_zero hn (by omega)]
      · obtain ⟨o', ho', ho'n⟩ := hinv.parent ho (n := o.header.number - 1) (by omega)
        obtain ⟨n', hn', hn'n⟩ := hinv.parent hn (n := n.header.number - 1) (by omega)
        obtain ⟨po, pn, P, hrun, hpo, hpn⟩ := findCommon_ok fuel (oc ++ [o]) (nc ++ [n])
          (hinv.stored_parent ho') (hinv.stored_parent hn') (by omega) (by omega)
        refine ⟨o :: po, n :: pn, P, ?_, ?_, ?_⟩
        · simp [findCommon, hh, h0, ho', hn', hrun]
        · rw [chainTo_of_parent ho ho' (by omega), ← hinv.hash ho', hpo]
          simp
        · rw [chainTo_of_parent hn hn' (by omega), ← hinv.hash hn', hpn]
          simp

theorem reduceHigher_ok {oldBlock newBlock : TxBlock}
    (hold : bc.blocks oldBlock.header.hash = some oldBlock)
    (hnew : bc.blocks newBlock.header.hash = some newBlock) :
    ∃ o n oc nc, reduceHigher bc.blocks oldBlock newBlock = .ok (o, n, oc, nc) ∧
      bc.blocks o.header.hash = some o ∧ bc.blocks n.header.hash = some n ∧
      o.header.number = n.header.number ∧
      bc.chainTo oldBlock.header.hash = bc.chainTo o.header.hash ++ oc.reverse ∧
      bc.chainTo newBlock.header.hash = bc.chainTo n.header.hash ++ nc.reverse := by
  by_cases hgt : oldBlock.header.number > newBlock.header.number
  · obtain ⟨o, path, hrun, ho, hon, hchain⟩ := reduceChain_ok hinv errInvalidOldChain
      (oldBlock.header.number + 1) (n := newBlock.header.number) [] hold (Nat.le_of_lt hgt) (by omega)
    exact ⟨o, newBlock, path, [], by simp [reduceHigher, hgt, hrun], ho, hnew, hon, hchain, by simp⟩
  · obtain ⟨n, path, hrun, hn, hnn, hchain⟩ := reduceChain_ok hinv errInvalidNewChain
      (newBlock.header.number + 1) (n := oldBlock.header.number) [] hnew (by omega) (by omega)
    exact ⟨oldBlock, n, [], path, by simp [reduceHigher, hgt, hrun], hold, hn, hnn.symm, by simp,
      hchain⟩

end Walk

/-! ## The index across a reorganisation -/

section Index

variable (cfg : IndexConfig) (hinv : bc.Inv)

theorem foldl_deleteKeys (blocks : List TxBlock) (db : TxIndex) :
    blocks.foldl (fun db b => deleteKeys (txIndexKeys cfg b (bc.depositsOf b)) db) db =
      deleteKeys (blocks.flatMap fun b => txIndexKeys cfg b (bc.depositsOf b)) db := by
  simp only [deleteKeys, List.foldl_flatMap]

/-- Inserting blocks one by one puts their entries in order and leaves the last one current. -/
theorem foldl_insert (entries : TxBlock → List (IndexKey × IndexValue)) (blocks : List TxBlock)
    (bc₀ : TxIndexChain) :
    blocks.foldl (fun bc b => { bc with
        currentBlock := b
        index := writeEntries (entries b) bc.index }) bc₀ =
      { bc₀ with
        currentBlock := blocks.getLast?.getD bc₀.currentBlock
        index := writeEntries (blocks.flatMap entries) bc₀.index } := by
  induction blocks generalizing bc₀ with
  | nil => rfl
  | cons b rest ih =>
    rw [List.foldl_cons, ih]
    simp [List.getLast?_cons]

include hinv

/-- Removing stored blocks one by one deletes every key they write. -/
theorem foldlM_removeTxIndexFromBlock {blocks : List TxBlock}
    (hs : ∀ b ∈ blocks, bc.blocks b.header.hash = some b) (db : TxIndex) :
    blocks.foldlM (removeTxIndexFromBlock cfg bc.xShardLists) db =
      .ok (deleteKeys (blocks.flatMap fun b => txIndexKeys cfg b (bc.depositsOf b)) db) := by
  refine (Except.foldlM_eq_ok (fun db b => deleteKeys (txIndexKeys cfg b (bc.depositsOf b)) db)
    (fun _ => True) ?_ trivial).trans ?_
  · intro db b hb _
    obtain ⟨deposits, hds⟩ := hinv.lists (hs b hb)
    refine ⟨?_, trivial⟩
    rw [removeTxIndexFromBlock_of_some hds, depositsOf, hds]
    rfl
  · rw [foldl_deleteKeys]

/-- Inserting stored blocks one by one puts their entries in order. -/
theorem foldlM_insertBlock {blocks : List TxBlock}
    (hs : ∀ b ∈ blocks, bc.blocks b.header.hash = some b) (index : TxIndex) :
    blocks.foldlM (insertBlock cfg) { bc with index := index } =
      .ok { bc with
        currentBlock := blocks.getLast?.getD bc.currentBlock
        index := writeEntries (blocks.flatMap fun b => txIndexEntries cfg b (bc.depositsOf b))
          index } := by
  refine (Except.foldlM_eq_ok (fun bc' b => { bc' with
      currentBlock := b
      index := writeEntries (txIndexEntries cfg b (bc.depositsOf b)) bc'.index })
    (fun bc' => bc'.xShardLists = bc.xShardLists) ?_ rfl).trans ?_
  · intro bc' b hb hlists
    obtain ⟨deposits, hds⟩ := hinv.lists (hs b hb)
    refine ⟨?_, hlists⟩
    have hds' : (bc'.insert b).xShardLists b.header.hash = some deposits := by
      rw [← hds, ← hlists]
      rfl
    simp only [insertBlock, putTxIndexFromBlock_of_some hds', depositsOf, hds, Except.ok_bind,
      Except.pure_eq_ok, Option.getD_some]
    rfl
  · rw [foldl_insert]

/-- `reorg` of two stored blocks succeeds: it deletes the keys of the old branch
and puts the entries of the new branch above the part the two chains share. -/
theorem reorg_eq {oldBlock newBlock : TxBlock}
    (hold : bc.blocks oldBlock.header.hash = some oldBlock)
    (hnew : bc.blocks newBlock.header.hash = some newBlock) :
    ∃ P O N, bc.chainTo oldBlock.header.hash = P ++ O ∧ bc.chainTo newBlock.header.hash = P ++ N ∧
      reorg cfg bc oldBlock newBlock = .ok { bc with
        currentBlock := N.getLast?.getD bc.currentBlock
        index := writeEntries (N.flatMap fun b => txIndexEntries cfg b (bc.depositsOf b))
          (deleteKeys (O.flatMap fun b => txIndexKeys cfg b (bc.depositsOf b)) bc.index) } := by
  obtain ⟨o, n, oc, nc, hred, ho, hn, hon, hold', hnew'⟩ := reduceHigher_ok hinv hold hnew
  obtain ⟨po, pn, P, hfind, hpo, hpn⟩ :=
    findCommon_ok hinv (o.header.number + 1) oc nc ho hn hon (Nat.lt_succ_self _)
  have hchainOld : bc.chainTo oldBlock.header.hash = P ++ (oc ++ po).reverse := by
    rw [hold', hpo]
    simp
  have hchainNew : bc.chainTo newBlock.header.hash = P ++ (nc ++ pn).reverse := by
    rw [hnew', hpn]
    simp
  have hstored : ∀ {tip : TxBlock}, bc.blocks tip.header.hash = some tip →
      ∀ {Q R : List TxBlock}, bc.chainTo tip.header.hash = Q ++ R →
      ∀ b ∈ R, bc.blocks b.header.hash = some b := by
    intro tip htip Q R hQR b hb
    have hmem : b ∈ bc.chainTo tip.header.hash := by
      rw [hQR]
      exact List.mem_append_right Q hb
    exact ((chainTo_spec hinv _ htip rfl).1 b hmem).1
  refine ⟨P, (oc ++ po).reverse, (nc ++ pn).reverse, hchainOld, hchainNew, ?_⟩
  simp only [reorg, hred, hfind, Except.ok_bind,
    foldlM_removeTxIndexFromBlock cfg hinv (hstored hold hchainOld),
    foldlM_insertBlock cfg hinv (hstored hnew hchainNew)]

end Index


/-! ## Stores that grow

No step forgets a block or changes the deposits of a stored one, so the chains of
stored blocks and their index stay as they were. -/

/-- `bc'` keeps every block of `bc` with its deposits. -/
def Grows (bc bc' : TxIndexChain) : Prop :=
  ∀ {h b}, bc.blocks h = some b → bc'.blocks h = some b ∧ bc'.xShardLists h = bc.xShardLists h

/-- What the index needs of the blocks: with history on, heights fit in a `uint32`,
and no two blocks of one chain write lookup entries for the same hash. -/
structure KeysApart (cfg : IndexConfig) (bc : TxIndexChain) : Prop where
  height : cfg.enableTransactionHistory = true →
    ∀ {h b}, bc.blocks h = some b → b.header.number < 2 ^ 32
  lookup : ∀ h, (bc.chainTo h).Pairwise fun a b =>
    (lookupHashes a (bc.depositsOf a)).Disjoint (lookupHashes b (bc.depositsOf b))

/-- The index is the index of the current block's chain. -/
def IndexInv (cfg : IndexConfig) (bc : TxIndexChain) : Prop :=
  bc.index = bc.chainIndex cfg (bc.chainTo bc.currentBlock.header.hash)

variable {bc' bc'' : TxIndexChain}

theorem Grows.refl (bc : TxIndexChain) : Grows bc bc := fun hb => ⟨hb, rfl⟩

theorem Grows.depositsOf (hg : Grows bc bc') {b : TxBlock}
    (hb : bc.blocks b.header.hash = some b) : bc'.depositsOf b = bc.depositsOf b := by
  simp only [TxIndexChain.depositsOf, (hg hb).2]

section Grows

variable (hinv : bc.Inv) (hg : Grows bc bc')
include hinv hg

theorem Grows.chainFrom : ∀ fuel {h : Hash} {b : TxBlock}, bc.blocks h = some b →
    fuel ≤ b.header.number + 1 → chainFrom bc'.blocks fuel h = chainFrom bc.blocks fuel h
  | 0, _, _, _, _ => rfl
  | fuel + 1, h, b, hb, hfuel => by
    rw [chainFrom_succ_of_some _ (hg hb).1, chainFrom_succ_of_some _ hb]
    cases fuel with
    | zero => rfl
    | succ fuel =>
      obtain ⟨p, hp, hpn⟩ := hinv.parent hb (n := b.header.number - 1) (by omega)
      rw [Grows.chainFrom (fuel + 1) hp (by omega)]

theorem Grows.chainTo {h : Hash} {b : TxBlock} (hb : bc.blocks h = some b) :
    bc'.chainTo h = bc.chainTo h := by
  rw [chainTo_of_some hb, chainTo_of_some (hg hb).1, Grows.chainFrom hinv hg _ hb le_rfl]

theorem Grows.chainIndex (cfg : IndexConfig) {h : Hash} {b : TxBlock}
    (hb : bc.blocks h = some b) :
    bc'.chainIndex cfg (bc.chainTo h) = bc.chainIndex cfg (bc.chainTo h) := by
  unfold TxIndexChain.chainIndex
  congr 1
  refine List.flatMap_congr fun a ha => ?_
  rw [Grows.depositsOf hg ((chainTo_spec hinv _ hb rfl).1 a ha).1]

theorem Grows.keysApart {cfg : IndexConfig} (hapart : KeysApart cfg bc') : KeysApart cfg bc where
  height hen _ _ hb := hapart.height hen (hg hb).1
  lookup h := by
    cases hb : bc.blocks h with
    | none => simp [TxIndexChain.chainTo, hb]
    | some b =>
      have hpair := hapart.lookup h
      rw [Grows.chainTo hinv hg hb] at hpair
      refine hpair.imp_of_mem fun ha hb' hdisj => ?_
      rwa [Grows.depositsOf hg ((chainTo_spec hinv _ hb rfl).1 _ ha).1,
        Grows.depositsOf hg ((chainTo_spec hinv _ hb rfl).1 _ hb').1] at hdisj

end Grows

/-- Along a chain, no two blocks write a common key. -/
theorem KeysApart.keys {cfg : IndexConfig} (hapart : KeysApart cfg bc) (hinv : bc.Inv) {h : Hash}
    {b : TxBlock} (hb : bc.blocks h = some b) :
    (bc.chainTo h).Pairwise fun a b =>
      (txIndexKeys cfg a (bc.depositsOf a)).Disjoint (txIndexKeys cfg b (bc.depositsOf b)) := by
  refine ((chainTo_pairwise_number hinv _ hb rfl).and (hapart.lookup h)).imp_of_mem ?_
  intro a a' ha ha' ⟨hlt, hdisj⟩
  refine txIndexKeys_disjoint hdisj fun hen => ?_
  have hsa := hapart.height hen ((chainTo_spec hinv _ hb rfl).1 a ha).1
  have hsa' := hapart.height hen ((chainTo_spec hinv _ hb rfl).1 a' ha').1
  rw [Nat.mod_eq_of_lt hsa, Nat.mod_eq_of_lt hsa']
  omega

/-! ## The index of a chain -/

section ChainIndex

variable (cfg : IndexConfig) (bc)

theorem chainIndex_append_singleton (chain : List TxBlock) (b : TxBlock) :
    bc.chainIndex cfg (chain ++ [b]) =
      writeEntries (txIndexEntries cfg b (bc.depositsOf b)) (bc.chainIndex cfg chain) := by
  simp [TxIndexChain.chainIndex]

/-- Putting the last block of a chain again changes nothing. -/
theorem writeEntries_chainIndex_last (chain : List TxBlock) (b : TxBlock) :
    writeEntries (txIndexEntries cfg b (bc.depositsOf b)) (bc.chainIndex cfg (chain ++ [b])) =
      bc.chainIndex cfg (chain ++ [b]) := by
  rw [chainIndex_append_singleton, writeEntries_idem]

/-- Deleting the keys of a branch `O` from the index of `P ++ O` and putting the
entries of a branch `N` gives the index of `P ++ N`, as long as no block of `O`
shares a key with a block of `P`. -/
theorem chainIndex_reorg (P O N : List TxBlock)
    (hdisj : ∀ a ∈ P, ∀ b ∈ O,
      (txIndexKeys cfg a (bc.depositsOf a)).Disjoint (txIndexKeys cfg b (bc.depositsOf b))) :
    writeEntries (N.flatMap fun b => txIndexEntries cfg b (bc.depositsOf b))
        (deleteKeys (O.flatMap fun b => txIndexKeys cfg b (bc.depositsOf b))
          (bc.chainIndex cfg (P ++ O))) =
      bc.chainIndex cfg (P ++ N) := by
  -- every entry the branch `O` wrote is under one of its keys
  have hcover : ∀ e ∈ O.flatMap fun b => txIndexEntries cfg b (bc.depositsOf b),
      e.1 ∈ O.flatMap fun b => txIndexKeys cfg b (bc.depositsOf b) := by
    intro e he
    obtain ⟨b, hb, he⟩ := List.mem_flatMap.mp he
    exact List.mem_flatMap.mpr ⟨b, hb, List.mem_map_of_mem he⟩
  -- and none of its keys is in the index of `P`
  have hfree : ∀ k ∈ O.flatMap (fun b => txIndexKeys cfg b (bc.depositsOf b)),
      bc.chainIndex cfg P k = none := by
    intro k hk
    obtain ⟨b, hb, hkb⟩ := List.mem_flatMap.mp hk
    refine writeEntries_of_not_mem fun hmem => ?_
    obtain ⟨e, he, rfl⟩ := List.mem_map.mp hmem
    obtain ⟨a, ha, hea⟩ := List.mem_flatMap.mp he
    exact hdisj a ha b hb (List.mem_map_of_mem hea) hkb
  have hsplit : ∀ Q, bc.chainIndex cfg (P ++ Q) =
      writeEntries (Q.flatMap fun b => txIndexEntries cfg b (bc.depositsOf b))
        (bc.chainIndex cfg P) := by
    intro Q
    simp [TxIndexChain.chainIndex]
  rw [hsplit O, deleteKeys_writeEntries hcover, deleteKeys_of_none hfree, hsplit N]

end ChainIndex


/-! ## Writing a block -/

section PutMinorBlock

variable {block parent : TxBlock} {xShardList : List CrossShardTransactionDeposit}
  (hknown : bc.blocks block.header.hash = none ∨
    bc.blocks block.header.hash = some block ∧ bc.xShardLists block.header.hash = some xShardList)
include hknown

theorem putMinorBlock_blocks_self :
    (bc.putMinorBlock block xShardList).blocks block.header.hash = some block := by
  rcases hknown with hnone | ⟨hsome, -⟩
  · simp [putMinorBlock, hnone]
  · simp [putMinorBlock, hsome]

theorem grows_putMinorBlock : Grows bc (bc.putMinorBlock block xShardList) := by
  intro h b hb
  by_cases hh : h = block.header.hash
  · subst hh
    rcases hknown with hnone | ⟨hsome, hlists⟩
    · rw [hnone] at hb
      cases hb
    · rw [hsome] at hb
      cases hb
      refine ⟨putMinorBlock_blocks_self (.inr ⟨hsome, hlists⟩), ?_⟩
      simp [putMinorBlock, hlists]
  · simp only [putMinorBlock]
    split <;> simp [hh, hb]

theorem Inv.putMinorBlock (hinv : bc.Inv) (hparent : bc.blocks block.header.parentHash = some parent)
    (hnumber : block.header.number = parent.header.number + 1) :
    (bc.putMinorBlock block xShardList).Inv := by
  have hg : Grows bc (bc.putMinorBlock block xShardList) := grows_putMinorBlock hknown
  have hself := putMinorBlock_blocks_self hknown
  -- the new block is the only one not already stored
  have hcases : ∀ {h b}, (bc.putMinorBlock block xShardList).blocks h = some b →
      bc.blocks h = some b ∨ (h = block.header.hash ∧ b = block) := by
    intro h b hb
    by_cases hh : h = block.header.hash
    · subst hh
      rw [hself] at hb
      exact .inr ⟨rfl, (Option.some.inj hb).symm⟩
    · left
      revert hb
      simp only [TxIndexChain.putMinorBlock]
      split <;> simp [hh]
  refine ⟨?_, ?_, ?_, (hg hinv.current).1⟩
  · intro h b hb
    rcases hcases hb with hb | ⟨rfl, rfl⟩
    · exact hinv.hash hb
    · rfl
  · intro h b hb
    rcases hcases hb with hb | ⟨rfl, rfl⟩
    · rw [(hg hb).2]
      exact hinv.lists hb
    · exact ⟨xShardList, by simp [TxIndexChain.putMinorBlock]⟩
  · intro h b n hb hn
    rcases hcases hb with hb | ⟨rfl, rfl⟩
    · obtain ⟨p, hp, hpn⟩ := hinv.parent hb hn
      exact ⟨p, (hg hp).1, hpn⟩
    · exact ⟨parent, (hg hparent).1, by omega⟩

theorem chainTo_putMinorBlock (hinv : bc.Inv)
    (hparent : bc.blocks block.header.parentHash = some parent)
    (hnumber : block.header.number = parent.header.number + 1) :
    (bc.putMinorBlock block xShardList).chainTo block.header.hash =
      bc.chainTo block.header.parentHash ++ [block] := by
  rw [chainTo_of_parent (putMinorBlock_blocks_self hknown) ((grows_putMinorBlock hknown hparent).1)
    hnumber.symm, Grows.chainTo hinv (grows_putMinorBlock hknown) hparent]

end PutMinorBlock

theorem depositsOf_putMinorBlock (block : TxBlock) (xShardList : List CrossShardTransactionDeposit) :
    (bc.putMinorBlock block xShardList).depositsOf block = xShardList := by
  simp [TxIndexChain.depositsOf, TxIndexChain.putMinorBlock]

end TxIndexChain

section WriteBlock

open TxIndexChain

variable (cfg : IndexConfig) {bc : TxIndexChain} {block parent : TxBlock}
  {xShardList : List CrossShardTransactionDeposit}

theorem writeBlockWithState_of_side :
    writeBlockWithState cfg bc block xShardList false = .ok (bc.putMinorBlock block xShardList) :=
  rfl

/-- A block that extends the current one is indexed on top of it. -/
theorem writeBlockWithState_of_extend
    (hcur : block.header.parentHash = bc.currentBlock.header.hash) :
    writeBlockWithState cfg bc block xShardList true = .ok { bc.putMinorBlock block xShardList with
      currentBlock := block
      index := writeEntries (txIndexEntries cfg block xShardList) bc.index } := by
  have hlists : (bc.putMinorBlock block xShardList).xShardLists block.header.hash =
      some xShardList := by
    simp [TxIndexChain.putMinorBlock]
  simp only [writeBlockWithState, hcur, ne_eq, not_true_eq_false, if_false, if_true,
    Except.pure_eq_ok, Except.ok_bind, putTxIndexFromBlock_of_some hlists]
  rfl

/-- A block off the current one is indexed after a `reorg` from the current block. -/
theorem writeBlockWithState_of_reorg (hinv : bc.Inv)
    (hparent : bc.blocks block.header.parentHash = some parent)
    (hnumber : block.header.number = parent.header.number + 1)
    (hknown : bc.blocks block.header.hash = none ∨
      bc.blocks block.header.hash = some block ∧ bc.xShardLists block.header.hash = some xShardList)
    (hcur : block.header.parentHash ≠ bc.currentBlock.header.hash) :
    ∃ P O N, bc.chainTo bc.currentBlock.header.hash = P ++ O ∧
      bc.chainTo block.header.parentHash ++ [block] = P ++ N ∧
      writeBlockWithState cfg bc block xShardList true = .ok { bc.putMinorBlock block xShardList with
        currentBlock := block
        index := writeEntries (txIndexEntries cfg block xShardList)
          (writeEntries (N.flatMap fun b =>
              txIndexEntries cfg b ((bc.putMinorBlock block xShardList).depositsOf b))
            (deleteKeys (O.flatMap fun b =>
                txIndexKeys cfg b ((bc.putMinorBlock block xShardList).depositsOf b))
              bc.index)) } := by
  have hg : Grows bc (bc.putMinorBlock block xShardList) := grows_putMinorBlock hknown
  have hinv₁ := hinv.putMinorBlock hknown hparent hnumber
  obtain ⟨P, O, N, hold, hnew, hreorg⟩ :=
    reorg_eq cfg hinv₁ (hg hinv.current).1 (putMinorBlock_blocks_self hknown)
  refine ⟨P, O, N, ?_, ?_, ?_⟩
  · rwa [Grows.chainTo hinv hg hinv.current] at hold
  · rwa [chainTo_putMinorBlock hknown hinv hparent hnumber] at hnew
  · have hlists : (bc.putMinorBlock block xShardList).xShardLists block.header.hash =
        some xShardList := by
      simp [TxIndexChain.putMinorBlock]
    simp only [writeBlockWithState, ne_eq, hcur, not_false_eq_true, if_true, hreorg,
      Except.ok_bind, putTxIndexFromBlock_of_some hlists]
    rfl

end WriteBlock


/-! ## Moving the tip back -/

section Rewind

open TxIndexChain

variable (cfg : IndexConfig) {bc : TxIndexChain} {newBlock : TxBlock}

theorem getD_getLast?_of_append {P N : List TxBlock} {b : TxBlock}
    (h : (P ++ N).getLast? = some b) : N.getLast?.getD b = b := by
  rcases List.eq_nil_or_concat N with rfl | ⟨L, x, rfl⟩
  · rfl
  · simp only [List.concat_eq_append, ← List.append_assoc, List.getLast?_append_of_ne_nil _
      (List.cons_ne_nil x []), List.getLast?_singleton, Option.some.injEq] at h ⊢
    rw [h]
    rfl

theorem addRootBlockRewind_of_current (hinv : bc.Inv)
    (hstored : bc.blocks newBlock.header.hash = some newBlock)
    (hsame : newBlock.header.hash = bc.currentBlock.header.hash) :
    addRootBlockRewind cfg bc newBlock = .ok bc := by
  have heq : newBlock = bc.currentBlock := by
    rw [hsame] at hstored
    exact Option.some.inj (hstored.symm.trans hinv.current)
  subst heq
  simp [addRootBlockRewind]

/-- Moving the tip to another stored block rewrites the index by a `reorg` from the
original tip. -/
theorem addRootBlockRewind_of_moved (hinv : bc.Inv)
    (hstored : bc.blocks newBlock.header.hash = some newBlock)
    (hmoved : newBlock.header.hash ≠ bc.currentBlock.header.hash) :
    ∃ P O N, bc.chainTo bc.currentBlock.header.hash = P ++ O ∧
      bc.chainTo newBlock.header.hash = P ++ N ∧
      addRootBlockRewind cfg bc newBlock = .ok { bc with
        currentBlock := newBlock
        index := writeEntries (N.flatMap fun b => txIndexEntries cfg b (bc.depositsOf b))
          (deleteKeys (O.flatMap fun b => txIndexKeys cfg b (bc.depositsOf b)) bc.index) } := by
  have hinvN : ({ bc with currentBlock := newBlock } : TxIndexChain).Inv :=
    ⟨hinv.hash, hinv.lists, hinv.parent, hstored⟩
  obtain ⟨P, O, N, hold, hnew, hreorg⟩ := reorg_eq cfg hinvN hinv.current hstored
  have hlast : N.getLast?.getD newBlock = newBlock := by
    have h := getLast?_chainTo hstored
    rw [show bc.chainTo newBlock.header.hash = P ++ N from hnew] at h
    exact getD_getLast?_of_append h
  refine ⟨P, O, N, hold, hnew, ?_⟩
  simp only [addRootBlockRewind, ne_eq, hmoved, not_false_eq_true, if_true, reWriteBlockIndexTo,
    hinv.current, Option.getD_some]
  rw [hreorg]
  simp only [hlast]
  rfl

end Rewind

/-! ## Every run -/

/-- The steps of a minor chain that touch the index. -/
inductive ChainStep (cfg : IndexConfig) : TxIndexChain → TxIndexChain → Prop
  /-- `WriteBlockWithState` of a validated block: its parent is stored one height
  below, and a block already stored comes with the same deposits. -/
  | writeBlock {bc bc' : TxIndexChain} {parent : TxBlock} (block : TxBlock)
      (xShardList : List CrossShardTransactionDeposit) (updateTip : Bool)
      (hparent : bc.blocks block.header.parentHash = some parent)
      (hnumber : block.header.number = parent.header.number + 1)
      (hknown : bc.blocks block.header.hash = none ∨
        bc.blocks block.header.hash = some block ∧ bc.xShardLists block.header.hash = some xShardList)
      (h : writeBlockWithState cfg bc block xShardList updateTip = .ok bc') : ChainStep cfg bc bc'
  /-- `AddRootBlock` moving the tip to a stored block. -/
  | addRootBlock {bc bc' : TxIndexChain} (newBlock : TxBlock)
      (hstored : bc.blocks newBlock.header.hash = some newBlock)
      (h : addRootBlockRewind cfg bc newBlock = .ok bc') : ChainStep cfg bc bc'

namespace TxIndexChain

variable {cfg : IndexConfig} {bc bc' : TxIndexChain}

/-- Moving the tip and rewriting the index leave the chains as they were. -/
@[simp] theorem chainTo_setTip (bc : TxIndexChain) (block : TxBlock) (index : TxIndex) :
    ({ bc with currentBlock := block, index := index } : TxIndexChain).chainTo = bc.chainTo := rfl

@[simp] theorem chainIndex_setTip (bc : TxIndexChain) (block : TxBlock) (index : TxIndex) :
    ({ bc with currentBlock := block, index := index } : TxIndexChain).chainIndex =
      bc.chainIndex := rfl

theorem inv_new {genesis : MinorBlockHeader} (hgenesis : genesis.number = 0) :
    (TxIndexChain.new genesis).Inv where
  hash {h b} hb := by
    by_cases hh : h = genesis.hash
    · subst hh
      simp only [TxIndexChain.new, put_apply, if_true, Option.some.injEq] at hb
      rw [← hb]
    · simp [TxIndexChain.new, hh] at hb
  lists {h b} hb := by
    by_cases hh : h = genesis.hash
    · exact ⟨[], by simp [TxIndexChain.new, hh]⟩
    · simp [TxIndexChain.new, hh] at hb
  parent {h b n} hb hn := by
    by_cases hh : h = genesis.hash
    · simp only [TxIndexChain.new, hh, put_apply, if_true, Option.some.injEq] at hb
      rw [← hb] at hn
      have hn' : genesis.number = n + 1 := hn
      omega
    · simp [TxIndexChain.new, hh] at hb
  current := by simp [TxIndexChain.new]

end TxIndexChain

section Steps

open TxIndexChain

variable {cfg : IndexConfig} {bc bc' : TxIndexChain}

/-- A step keeps the invariant and every stored block. -/
theorem ChainStep.inv (hstep : ChainStep cfg bc bc') (hinv : bc.Inv) : bc'.Inv ∧ Grows bc bc' := by
  cases hstep with
  | writeBlock block xShardList updateTip hparent hnumber hknown h =>
    have hg : Grows bc (bc.putMinorBlock block xShardList) := grows_putMinorBlock hknown
    have hinv₁ := hinv.putMinorBlock hknown hparent hnumber
    cases updateTip with
    | false =>
      rw [writeBlockWithState_of_side] at h
      cases h
      exact ⟨hinv₁, hg⟩
    | true =>
      by_cases hcur : block.header.parentHash = bc.currentBlock.header.hash
      · rw [writeBlockWithState_of_extend cfg hcur] at h
        cases h
        exact ⟨⟨hinv₁.hash, hinv₁.lists, hinv₁.parent, putMinorBlock_blocks_self hknown⟩, hg⟩
      · obtain ⟨P, O, N, -, -, hw⟩ := writeBlockWithState_of_reorg cfg hinv hparent hnumber hknown hcur
        rw [hw] at h
        cases h
        exact ⟨⟨hinv₁.hash, hinv₁.lists, hinv₁.parent, putMinorBlock_blocks_self hknown⟩, hg⟩
  | addRootBlock newBlock hstored h =>
    by_cases hmoved : newBlock.header.hash = bc.currentBlock.header.hash
    · rw [addRootBlockRewind_of_current cfg hinv hstored hmoved] at h
      cases h
      exact ⟨hinv, Grows.refl bc⟩
    · obtain ⟨P, O, N, -, -, hr⟩ := addRootBlockRewind_of_moved cfg hinv hstored hmoved
      rw [hr] at h
      cases h
      exact ⟨⟨hinv.hash, hinv.lists, hinv.parent, hstored⟩, fun hb => ⟨hb, rfl⟩⟩

/-- A step keeps the index equal to the index of the current block's chain, as long
as the blocks it ends with keep their keys apart. -/
theorem ChainStep.index (hstep : ChainStep cfg bc bc') (hinv : bc.Inv) (hidx : IndexInv cfg bc)
    (hapart : KeysApart cfg bc') : IndexInv cfg bc' := by
  obtain ⟨-, hg⟩ := hstep.inv hinv
  have hapart₀ : KeysApart cfg bc := Grows.keysApart hinv hg hapart
  cases hstep with
  | writeBlock block xShardList updateTip hparent hnumber hknown h =>
    have hg₁ : Grows bc (bc.putMinorBlock block xShardList) := grows_putMinorBlock hknown
    have hinv₁ := hinv.putMinorBlock hknown hparent hnumber
    have hcur₁ := Grows.chainTo hinv hg₁ hinv.current
    have hcs := Grows.chainIndex hinv hg₁ cfg hinv.current
    cases updateTip with
    | false =>
      rw [writeBlockWithState_of_side] at h
      cases h
      unfold IndexInv
      rw [putMinorBlock_currentBlock, putMinorBlock_index, hcur₁, hcs]
      exact hidx
    | true =>
      by_cases hcur : block.header.parentHash = bc.currentBlock.header.hash
      · -- the block extends the tip: one more block on the chain
        rw [writeBlockWithState_of_extend cfg hcur] at h
        cases h
        unfold IndexInv
        dsimp only
        rw [chainTo_setTip, chainIndex_setTip, chainTo_putMinorBlock hknown hinv hparent hnumber,
          hcur, chainIndex_append_singleton, depositsOf_putMinorBlock, hcs, ← hidx]
      · -- a reorganisation from the tip, then the block once more
        obtain ⟨P, O, N, hold, hnew, hw⟩ :=
          writeBlockWithState_of_reorg cfg hinv hparent hnumber hknown hcur
        rw [hw] at h
        cases h
        have hapart₁ : KeysApart cfg (bc.putMinorBlock block xShardList) :=
          ⟨hapart.height, hapart.lookup⟩
        have hdisj := hapart₁.keys hinv₁ (hg₁ hinv.current).1
        rw [hcur₁, hold, List.pairwise_append] at hdisj
        unfold IndexInv
        dsimp only
        rw [chainTo_setTip, chainIndex_setTip, chainTo_putMinorBlock hknown hinv hparent hnumber,
          hnew, hidx, ← hcs, hold, chainIndex_reorg _ cfg P O N hdisj.2.2, ← hnew]
        -- the block itself is put last, over its own entries
        have hlast := writeEntries_chainIndex_last (bc.putMinorBlock block xShardList) cfg
          (bc.chainTo block.header.parentHash) block
        rwa [depositsOf_putMinorBlock] at hlast
  | addRootBlock newBlock hstored h =>
    by_cases hmoved : newBlock.header.hash = bc.currentBlock.header.hash
    · rw [addRootBlockRewind_of_current cfg hinv hstored hmoved] at h
      cases h
      exact hidx
    · obtain ⟨P, O, N, hold, hnew, hr⟩ := addRootBlockRewind_of_moved cfg hinv hstored hmoved
      rw [hr] at h
      cases h
      have hdisj := hapart₀.keys hinv hinv.current
      rw [hold, List.pairwise_append] at hdisj
      unfold IndexInv
      rw [chainTo_setTip, chainIndex_setTip, hnew, hidx, hold]
      exact chainIndex_reorg bc cfg P O N hdisj.2.2

theorem ChainStep.inv_of_run {genesis : MinorBlockHeader} (hgenesis : genesis.number = 0)
    (hrun : Relation.ReflTransGen (ChainStep cfg) (TxIndexChain.new genesis) bc) : bc.Inv := by
  induction hrun with
  | refl => exact inv_new hgenesis
  | tail _ hstep ih => exact (hstep.inv ih).1

end Steps

namespace TxIndexChain

variable {cfg : IndexConfig} {bc : TxIndexChain} {genesis : MinorBlockHeader}

end TxIndexChain

/-! ## A run of one block per height

From a genesis at hash `1`, the block at height `n` has hash `n + 1`. The blocks at
heights `1` and `2` carry the same transaction, a contract creation in a token other
than the default one: `EVM.create` returns before it bumps the sender's nonce, so
the transaction applies again (`Core.tokenCreation_applies_twice`). Each block is
written as the new tip, and a root block may then move the tip back to the parent of
the last one. -/

namespace LinearRun

open TxIndexChain

/-- Transaction history on, as a full node runs it. -/
def cfg : IndexConfig := ⟨true, ⟨0⟩, fun _ => 0⟩

/-- A contract creation in token `1`, known by its hash. -/
def tx (hash : Hash) : EvmTransaction :=
  ⟨0, 0, 0, none, 0, [], 0, 0, 0, 0, 1, 1, 1, hash⟩

def block (n : Nat) : TxBlock :=
  ⟨⟨n + 1, n, n, ⟨0⟩, 0⟩, if n = 1 ∨ n = 2 then [tx 1] else []⟩

/-- The chain once the blocks up to height `n` are written as tips. -/
def state : Nat → TxIndexChain
  | 0 => TxIndexChain.new (block 0).header
  | n + 1 => { (state n).putMinorBlock (block (n + 1)) [] with
      currentBlock := block (n + 1)
      index := writeEntries (txIndexEntries cfg (block (n + 1)) []) (state n).index }

end LinearRun

end Core
