import GoQuarkChain.Lib.KeyValue
import GoQuarkChain.Core.StateProcessor
import GoQuarkChain.Core.MinorBlockChain

/-!
# The transaction index of a minor block

`putTxIndexFromBlock` writes, for a minor block, a lookup entry for each of its
transactions and for each deposit it confirmed
(`WriteBlockContentLookupEntriesWithCrossShardHashList`), and, when
`EnableTransactionHistory` is set, history keys: the all-transactions key and the
sender's and in-branch recipient's address keys of every transaction
(`updateTxHistoryIndex`), and the recipient's key and, unless it came from the
root chain, the all-transactions key of every deposit that is not a zero-value
coinbase deposit (`updateTxHistoryIndexFromBlock`). `removeTxIndexFromBlock`
deletes the same keys, transaction by transaction.

A key is modelled by its fields. The byte keys start with distinct prefixes and
hold their fields at fixed widths, so two keys are equal exactly when their
fields are; heights and indices are written as `uint32`, so they are kept modulo
`2 ^ 32`. A lookup entry holds the block's hash and a position, a history key the
string "1". Both helpers read the block's deposits by its hash; `putMinorBlock`
writes the deposit list and its hash list together, so one map stands for both.
The sender that `types.Sender` recovers is a parameter: a block reaches the index
only after validation, where every sender was recovered.
-/

namespace Core

open State KeyValue

/-- What the index reads of the chain's configuration. -/
structure IndexConfig where
  enableTransactionHistory : Bool
  branch : Account.Branch
  sender : EvmTransaction → Recipient

/-- `types.MinorBlock` as the index reads it: the header and the transactions. -/
structure TxBlock where
  header : MinorBlockHeader
  transactions : List EvmTransaction
deriving DecidableEq, Repr

/-- A key of the index. -/
inductive IndexKey where
  /-- `lookupKey`: where the transaction or deposit with this hash was included. -/
  | lookup (hash : Hash)
  /-- `encodeAllTxKey`. -/
  | allTx (height : Nat) (crossShard : Bool) (index : Nat)
  /-- `encodeAddressTxKey`. -/
  | addressTx (addr : Recipient) (height : Nat) (crossShard : Bool) (index : Nat)
deriving DecidableEq, Repr

inductive IndexValue where
  /-- `LookupEntry`: the including block and the position in it. -/
  | lookupEntry (blockHash : Hash) (index : Nat)
  /-- The value "1" that `putTxIndexDB` stores. -/
  | present
deriving DecidableEq, Repr

abbrev TxIndex := IndexKey → Option IndexValue

/-- The block height a history key carries. -/
def IndexKey.height : IndexKey → Option Nat
  | .lookup _ => none
  | .allTx height _ _ => some height
  | .addressTx _ height _ _ => some height

def encodeAllTxKey (height index : Nat) (crossShard : Bool) : IndexKey :=
  .allTx (height % 2 ^ 32) crossShard (index % 2 ^ 32)

def encodeAddressTxKey (addr : Recipient) (height index : Nat) (crossShard : Bool) : IndexKey :=
  .addressTx addr (height % 2 ^ 32) crossShard (index % 2 ^ 32)

def putTxIndexDB (key : IndexKey) (db : TxIndex) : TxIndex := put key .present db

def deleteTxIndexDB (key : IndexKey) (db : TxIndex) : TxIndex := delete key db

def deleteBlockContentLookupEntry (hash : Hash) (db : TxIndex) : TxIndex := delete (.lookup hash) db

/-- The transactions at their positions, then the deposit hashes after them. -/
def writeBlockContentLookupEntriesWithCrossShardHashList (db : TxIndex) (block : TxBlock)
    (hList : List Hash) : TxIndex :=
  let db := block.transactions.zipIdx.foldl (fun db (tx, i) =>
    put (.lookup tx.hash) (.lookupEntry block.header.hash (i % 2 ^ 32)) db) db
  hList.zipIdx.foldl (fun db (h, i) =>
    put (.lookup h) (.lookupEntry block.header.hash
      ((i % 2 ^ 32 + block.transactions.length % 2 ^ 32) % 2 ^ 32)) db) db

/-- The history keys of an in-shard transaction, handed to `f` one by one. -/
def updateTxHistoryIndex (cfg : IndexConfig) (tx : EvmTransaction) (height index : Nat)
    (f : IndexKey → TxIndex → TxIndex) (db : TxIndex) : TxIndex :=
  if !cfg.enableTransactionHistory then db
  else
    let db := f (encodeAllTxKey height index false) db
    let db := f (encodeAddressTxKey (cfg.sender tx) height index false) db
    match tx.recipient with
    | some recipient =>
      if cfg.branch.isInBranch tx.toFullShardKey then
        f (encodeAddressTxKey recipient height index false) db
      else db
    | none => db

def putTxHistoryIndex (cfg : IndexConfig) (tx : EvmTransaction) (height index : Nat)
    (db : TxIndex) : TxIndex :=
  updateTxHistoryIndex cfg tx height index putTxIndexDB db

def removeTxHistoryIndex (cfg : IndexConfig) (tx : EvmTransaction) (height index : Nat)
    (db : TxIndex) : TxIndex :=
  updateTxHistoryIndex cfg tx height index deleteTxIndexDB (deleteBlockContentLookupEntry tx.hash db)

/-- The history keys of the deposits a block confirmed, handed to `f` one by one. -/
def updateTxHistoryIndexFromBlock (cfg : IndexConfig) (block : TxBlock)
    (xShardReceiveTxList : List CrossShardTransactionDeposit) (f : IndexKey → TxIndex → TxIndex)
    (db : TxIndex) : TxIndex :=
  if !cfg.enableTransactionHistory then db
  else
    xShardReceiveTxList.zipIdx.foldl (fun db (tx, index) =>
      -- dummy coinbase reward deposits are skipped; `Uint64` keeps the low 64 bits
      if tx.isFromRootChain && tx.value % 2 ^ 64 == 0 then db
      else
        let db := f (encodeAddressTxKey tx.toAddr.recipient block.header.number index true) db
        if !tx.isFromRootChain then f (encodeAllTxKey block.header.number index true) db else db) db

def putTxHistoryIndexFromBlock (cfg : IndexConfig) (block : TxBlock)
    (xShardReceiveTxList : List CrossShardTransactionDeposit) (db : TxIndex) : TxIndex :=
  updateTxHistoryIndexFromBlock cfg block xShardReceiveTxList putTxIndexDB db

def removeTxHistoryIndexFromBlock (cfg : IndexConfig) (block : TxBlock)
    (xShardReceiveTxList : List CrossShardTransactionDeposit) (db : TxIndex) : TxIndex :=
  updateTxHistoryIndexFromBlock cfg block xShardReceiveTxList deleteTxIndexDB db

/-- `putTxIndexFromBlock`, reading the block's deposits from `xShardLists`. -/
def putTxIndexFromBlock (cfg : IndexConfig)
    (xShardLists : Hash → Option (List CrossShardTransactionDeposit)) (db : TxIndex)
    (block : TxBlock) : Except Failure TxIndex :=
  match xShardLists block.header.hash with
  | none => .error (.error "xShardDepositHashList err")
  | some deposit =>
    let db := writeBlockContentLookupEntriesWithCrossShardHashList db block (deposit.map (·.txHash))
    let db := block.transactions.zipIdx.foldl (fun db (tx, index) =>
      putTxHistoryIndex cfg tx block.header.number index db) db
    .ok (putTxHistoryIndexFromBlock cfg block deposit db)

/-- `removeTxIndexFromBlock`, reading the block's deposits from `xShardLists`. -/
def removeTxIndexFromBlock (cfg : IndexConfig)
    (xShardLists : Hash → Option (List CrossShardTransactionDeposit)) (db : TxIndex)
    (block : TxBlock) : Except Failure TxIndex :=
  let db := block.transactions.zipIdx.foldl (fun db (tx, index) =>
    removeTxHistoryIndex cfg tx block.header.number index db) db
  match xShardLists block.header.hash with
  | none =>
    -- logged as impossible; the history part then reads through the missing list
    if cfg.enableTransactionHistory then .error nilDereference else .ok db
  | some depositHList =>
    let db := depositHList.foldl (fun db d => deleteBlockContentLookupEntry d.txHash db) db
    .ok (removeTxHistoryIndexFromBlock cfg block depositHList db)

/-! ## The keys of a block

One list says what `putTxIndexFromBlock` writes for a block; removal deletes the
keys of that list, and every key is a lookup of one of the block's hashes or a
history key at the block's height. -/

/-- The history keys `updateTxHistoryIndex` hands to its callback, in order. -/
def txHistoryKeys (cfg : IndexConfig) (tx : EvmTransaction) (height index : Nat) :
    List IndexKey :=
  [encodeAllTxKey height index false, encodeAddressTxKey (cfg.sender tx) height index false] ++
    match tx.recipient with
    | some recipient =>
      if cfg.branch.isInBranch tx.toFullShardKey then [encodeAddressTxKey recipient height index false]
      else []
    | none => []

/-- The history keys `updateTxHistoryIndexFromBlock` hands to its callback for one deposit. -/
def depositHistoryKeys (height : Nat) (tx : CrossShardTransactionDeposit) (index : Nat) :
    List IndexKey :=
  if tx.isFromRootChain && tx.value % 2 ^ 64 == 0 then []
  else
    encodeAddressTxKey tx.toAddr.recipient height index true ::
      if !tx.isFromRootChain then [encodeAllTxKey height index true] else []

/-- The history keys of a block: its transactions', then its deposits'. -/
def blockHistoryKeys (cfg : IndexConfig) (block : TxBlock)
    (deposits : List CrossShardTransactionDeposit) : List IndexKey :=
  (block.transactions.zipIdx.flatMap fun p => txHistoryKeys cfg p.1 block.header.number p.2) ++
    deposits.zipIdx.flatMap fun p => depositHistoryKeys block.header.number p.1 p.2

/-- The lookup entries of a block: its transactions, then the deposit hashes. -/
def lookupEntries (block : TxBlock) (hList : List Hash) : List (IndexKey × IndexValue) :=
  (block.transactions.zipIdx.map fun p =>
    (.lookup p.1.hash, .lookupEntry block.header.hash (p.2 % 2 ^ 32))) ++
  hList.zipIdx.map fun p =>
    (.lookup p.1, .lookupEntry block.header.hash
      ((p.2 % 2 ^ 32 + block.transactions.length % 2 ^ 32) % 2 ^ 32))

/-- Everything `putTxIndexFromBlock` writes for a block with these deposits, in order. -/
def txIndexEntries (cfg : IndexConfig) (block : TxBlock)
    (deposits : List CrossShardTransactionDeposit) : List (IndexKey × IndexValue) :=
  lookupEntries block (deposits.map (·.txHash)) ++
    if cfg.enableTransactionHistory then (blockHistoryKeys cfg block deposits).map (·, .present)
    else []

def txIndexKeys (cfg : IndexConfig) (block : TxBlock)
    (deposits : List CrossShardTransactionDeposit) : List IndexKey :=
  (txIndexEntries cfg block deposits).map Prod.fst

private theorem exists_mem_zipIdx_iff {α : Type} {l : List α} {a : α} :
    (∃ i, (a, i) ∈ l.zipIdx) ↔ a ∈ l := by
  constructor
  · rintro ⟨i, hi⟩
    exact List.fst_mem_of_mem_zipIdx hi
  · intro ha
    obtain ⟨i, hi, rfl⟩ := List.getElem_of_mem ha
    exact ⟨i, List.mk_mem_zipIdx_iff_getElem?.mpr (by simp [hi])⟩

/-- The hashes a block writes lookup entries for. -/
def lookupHashes (block : TxBlock) (deposits : List CrossShardTransactionDeposit) : List Hash :=
  block.transactions.map (·.hash) ++ deposits.map (·.txHash)

section Spec

variable (cfg : IndexConfig) (block : TxBlock) (deposits : List CrossShardTransactionDeposit)

theorem updateTxHistoryIndex_eq (tx : EvmTransaction) (height index : Nat)
    (f : IndexKey → TxIndex → TxIndex) (db : TxIndex) :
    updateTxHistoryIndex cfg tx height index f db =
      if cfg.enableTransactionHistory then
        (txHistoryKeys cfg tx height index).foldl (fun db k => f k db) db
      else db := by
  cases hen : cfg.enableTransactionHistory with
  | false => simp [updateTxHistoryIndex, hen]
  | true =>
    cases hto : tx.recipient with
    | none => simp [updateTxHistoryIndex, txHistoryKeys, hen, hto]
    | some recipient =>
      by_cases hin : cfg.branch.isInBranch tx.toFullShardKey <;>
        simp [updateTxHistoryIndex, txHistoryKeys, hen, hto, hin]

theorem updateTxHistoryIndexFromBlock_eq (f : IndexKey → TxIndex → TxIndex) (db : TxIndex) :
    updateTxHistoryIndexFromBlock cfg block deposits f db =
      if cfg.enableTransactionHistory then
        (deposits.zipIdx.flatMap fun p => depositHistoryKeys block.header.number p.1 p.2).foldl
          (fun db k => f k db) db
      else db := by
  cases hen : cfg.enableTransactionHistory with
  | false => simp [updateTxHistoryIndexFromBlock, hen]
  | true =>
    simp only [updateTxHistoryIndexFromBlock, hen, Bool.not_true, Bool.false_eq_true, if_false,
      if_true, List.foldl_flatMap]
    congr
    funext db p
    simp only [depositHistoryKeys]
    split_ifs <;> rfl

theorem writeBlockContentLookupEntriesWithCrossShardHashList_eq (hList : List Hash) (db : TxIndex) :
    writeBlockContentLookupEntriesWithCrossShardHashList db block hList =
      writeEntries (lookupEntries block hList) db := by
  simp only [writeBlockContentLookupEntriesWithCrossShardHashList, lookupEntries, writeEntries,
    List.foldl_append, List.foldl_map]

variable {cfg block deposits} {xShardLists : Hash → Option (List CrossShardTransactionDeposit)}

theorem putTxIndexFromBlock_of_some (h : xShardLists block.header.hash = some deposits)
    (db : TxIndex) :
    putTxIndexFromBlock cfg xShardLists db block =
      .ok (writeEntries (txIndexEntries cfg block deposits) db) := by
  simp only [putTxIndexFromBlock, h, putTxHistoryIndex, updateTxHistoryIndex_eq,
    putTxHistoryIndexFromBlock, updateTxHistoryIndexFromBlock_eq,
    writeBlockContentLookupEntriesWithCrossShardHashList_eq, txIndexEntries, blockHistoryKeys]
  cases cfg.enableTransactionHistory with
  | false => simp [List.foldl_fixed]
  | true =>
    simp only [if_true, writeEntries_append, List.map_append]
    simp only [writeEntries, List.foldl_map, List.foldl_flatMap, putTxIndexDB]

theorem removeTxIndexFromBlock_of_some (h : xShardLists block.header.hash = some deposits)
    (db : TxIndex) :
    removeTxIndexFromBlock cfg xShardLists db block =
      .ok (deleteKeys (txIndexKeys cfg block deposits) db) := by
  -- removal goes transaction by transaction, lookup key first; only the set of keys matters
  have hkeys : ∀ k, k ∈ (block.transactions.zipIdx.flatMap fun p => IndexKey.lookup p.1.hash ::
        if cfg.enableTransactionHistory then txHistoryKeys cfg p.1 block.header.number p.2
        else []) ++ deposits.map (fun d => IndexKey.lookup d.txHash) ++
        (if cfg.enableTransactionHistory then
          deposits.zipIdx.flatMap fun p => depositHistoryKeys block.header.number p.1 p.2
        else []) ↔ k ∈ txIndexKeys cfg block deposits := by
    intro k
    cases hen : cfg.enableTransactionHistory
    · simp only [Bool.false_eq_true, reduceIte, List.append_nil, List.mem_append,
        List.mem_flatMap, List.mem_cons, List.not_mem_nil, or_false, Prod.exists,
        exists_and_right, exists_mem_zipIdx_iff, List.mem_map, eq_comm, txIndexKeys,
        txIndexEntries, lookupEntries, Nat.add_mod_mod, Nat.mod_add_mod, hen, List.map_append,
        List.map_map, Function.comp_apply, existsAndEq, and_true]
    · simp only [reduceIte, List.append_assoc, List.mem_append, List.mem_flatMap, List.mem_cons,
        and_or_left, exists_or, Prod.exists, exists_and_right, exists_mem_zipIdx_iff, List.mem_map,
        eq_comm, or_assoc, txIndexKeys, txIndexEntries, lookupEntries, Nat.add_mod_mod,
        Nat.mod_add_mod, hen, blockHistoryKeys, List.map_append, List.map_map, Function.comp_apply,
        existsAndEq, and_true, exists_eq_right', or_left_comm]
  rw [← deleteKeys_congr hkeys]
  simp only [removeTxIndexFromBlock, h, removeTxHistoryIndex, updateTxHistoryIndex_eq,
    removeTxHistoryIndexFromBlock, updateTxHistoryIndexFromBlock_eq]
  cases cfg.enableTransactionHistory <;>
    simp only [deleteKeys, List.foldl_append, List.foldl_flatMap, List.foldl_map, List.foldl_cons,
      List.foldl_nil, deleteTxIndexDB, deleteBlockContentLookupEntry, if_true, if_false,
      Bool.false_eq_true]

/-- `removeTxIndexFromBlock` deletes exactly what `putTxIndexFromBlock` wrote: removing a
block's index right after putting it leaves what removing it alone leaves. -/
theorem removeTxIndexFromBlock_of_putTxIndexFromBlock {db db' : TxIndex}
    (hput : putTxIndexFromBlock cfg xShardLists db block = .ok db') :
    removeTxIndexFromBlock cfg xShardLists db' block =
      removeTxIndexFromBlock cfg xShardLists db block := by
  cases h : xShardLists block.header.hash with
  | none => simp [putTxIndexFromBlock, h] at hput
  | some deposits =>
    rw [putTxIndexFromBlock_of_some h] at hput
    cases hput
    rw [removeTxIndexFromBlock_of_some h, removeTxIndexFromBlock_of_some h, txIndexKeys,
      deleteKeys_writeEntries fun e he => List.mem_map_of_mem he]

/-- Putting a block's index a second time changes nothing. -/
theorem putTxIndexFromBlock_twice {db db' : TxIndex}
    (hput : putTxIndexFromBlock cfg xShardLists db block = .ok db') :
    putTxIndexFromBlock cfg xShardLists db' block = .ok db' := by
  cases h : xShardLists block.header.hash with
  | none => simp [putTxIndexFromBlock, h] at hput
  | some deposits =>
    rw [putTxIndexFromBlock_of_some h] at hput
    cases hput
    rw [putTxIndexFromBlock_of_some h, writeEntries_idem]

theorem height_of_mem_txHistoryKeys {tx : EvmTransaction} {height index : Nat} {k : IndexKey}
    (hk : k ∈ txHistoryKeys cfg tx height index) : k.height = some (height % 2 ^ 32) := by
  simp only [txHistoryKeys, List.cons_append, List.nil_append, List.mem_cons] at hk
  rcases hk with rfl | rfl | hk
  · rfl
  · rfl
  · split at hk
    · split at hk
      · rw [List.mem_singleton.mp hk]
        rfl
      · cases hk
    · cases hk

theorem height_of_mem_depositHistoryKeys {tx : CrossShardTransactionDeposit}
    {height index : Nat} {k : IndexKey} (hk : k ∈ depositHistoryKeys height tx index) :
    k.height = some (height % 2 ^ 32) := by
  simp only [depositHistoryKeys] at hk
  split at hk
  · cases hk
  · rcases List.mem_cons.mp hk with rfl | hk
    · rfl
    · split at hk
      · rw [List.mem_singleton.mp hk]
        rfl
      · cases hk

/-- Every key a block writes is a lookup of one of its hashes or, with history on,
a history key at its height. -/
theorem mem_txIndexKeys {k : IndexKey} (hk : k ∈ txIndexKeys cfg block deposits) :
    (∃ h ∈ lookupHashes block deposits, k = .lookup h) ∨
      (cfg.enableTransactionHistory = true ∧ k.height = some (block.header.number % 2 ^ 32)) := by
  simp only [txIndexKeys, txIndexEntries, List.map_append, List.mem_append] at hk
  rcases hk with hk | hk
  · -- a lookup entry, of a transaction or of a deposit hash
    left
    simp only [lookupEntries, List.map_append, List.map_map, List.mem_append, List.mem_map,
      Function.comp_apply] at hk
    rcases hk with ⟨p, hp, rfl⟩ | ⟨p, hp, rfl⟩
    · exact ⟨p.1.hash, List.mem_append_left _ (List.mem_map_of_mem (List.fst_mem_of_mem_zipIdx hp)),
        rfl⟩
    · exact ⟨p.1, List.mem_append_right _ (List.fst_mem_of_mem_zipIdx hp), rfl⟩
  · -- a history key, written only with history on
    split at hk
    · rename_i hen
      refine .inr ⟨hen, ?_⟩
      simp only [blockHistoryKeys, List.map_map, List.mem_map, List.mem_append,
        List.mem_flatMap, Function.comp_apply] at hk
      obtain ⟨k', hk', rfl⟩ := hk
      rcases hk' with ⟨p, -, hp⟩ | ⟨p, -, hp⟩
      · exact height_of_mem_txHistoryKeys hp
      · exact height_of_mem_depositHistoryKeys hp
    · cases hk

/-- Two blocks write no common key when they write lookup entries for no common hash
and, with history on, stand at different `uint32` heights. -/
theorem txIndexKeys_disjoint {a b : TxBlock} {depositsA depositsB : List CrossShardTransactionDeposit}
    (hlookup : (lookupHashes a depositsA).Disjoint (lookupHashes b depositsB))
    (hheight : cfg.enableTransactionHistory = true →
      a.header.number % 2 ^ 32 ≠ b.header.number % 2 ^ 32) :
    (txIndexKeys cfg a depositsA).Disjoint (txIndexKeys cfg b depositsB) := by
  intro k hka hkb
  rcases mem_txIndexKeys hka with ⟨h, hh, rfl⟩ | ⟨hen, ha⟩ <;>
    rcases mem_txIndexKeys hkb with ⟨h', hh', heq⟩ | ⟨-, hb⟩
  · cases heq
    exact hlookup hh hh'
  · cases hb
  · rw [heq] at ha
    cases ha
  · exact hheight hen (Option.some.inj (ha.symm.trans hb))

end Spec

/-! ## A block with one transfer -/

section TransferBlock

/-- History on, in the shard of full shard id `1`, every transaction sent by account `1`. -/
def historyConfig : IndexConfig := ⟨true, ⟨1⟩, fun _ => 1⟩

/-- A block at height `1` with one transfer to account `2`, and no deposits. -/
def transferBlock : TxBlock :=
  ⟨⟨2, 1, 1, ⟨1⟩, 0⟩,
    [{ accountNonce := 0, price := 1, gasLimit := 21000, recipient := some 2, amount := 1,
       payload := [], networkId := 3, fromFullShardKey := 1, toFullShardKey := 1,
       gasTokenID := 0, transferTokenID := 0, fromShardSize := 1, toShardSize := 1, hash := 7 }]⟩

theorem putTxIndexFromBlock_twice_transferBlock :
    ∃ db', putTxIndexFromBlock historyConfig (fun _ => some []) (fun _ => none) transferBlock =
        .ok db' ∧
      putTxIndexFromBlock historyConfig (fun _ => some []) db' transferBlock = .ok db' := by
  obtain ⟨db', hput⟩ : ∃ db',
      putTxIndexFromBlock historyConfig (fun _ => some []) (fun _ => none) transferBlock =
        .ok db' := ⟨_, rfl⟩
  exact ⟨db', hput, putTxIndexFromBlock_twice hput⟩

theorem removeTxIndexFromBlock_of_putTxIndexFromBlock_transferBlock :
    ∃ db', putTxIndexFromBlock historyConfig (fun _ => some []) (fun _ => none) transferBlock =
        .ok db' ∧
      removeTxIndexFromBlock historyConfig (fun _ => some []) db' transferBlock =
        removeTxIndexFromBlock historyConfig (fun _ => some []) (fun _ => none) transferBlock := by
  obtain ⟨db', hput⟩ : ∃ db',
      putTxIndexFromBlock historyConfig (fun _ => some []) (fun _ => none) transferBlock =
        .ok db' := ⟨_, rfl⟩
  exact ⟨db', hput, removeTxIndexFromBlock_of_putTxIndexFromBlock hput⟩

end TransferBlock

end Core
