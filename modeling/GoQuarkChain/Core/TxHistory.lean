import GoQuarkChain.Core.HistoryKeys
import GoQuarkChain.Lib.Paging

/-!
# Paging through the transaction history

`getTransactionDetails` walks the database down from `SeekForPrev(start)` until a key
falls below the prefix `end`. At each key it finds the entry the key names (`locate`:
decode the key, read the canonical block at its height, then the deposit or the
transaction at its index), and unless the filter skips the entry or its hash is in the
page's set it appends the entry's detail and lowers `limit`; after every key it sets
`next` to `bytesSubOne` of the key, and it stops once `limit` is zero.
`GetTransactionByAddress` and `GetAllTx` clamp the start to `bytesAddOne end` and call
it with the prefix of an address's keys or of all keys.

A page keeps `PageInv` over the keys it has read (`PageInv.keep`, `PageInv.skip`,
`detailsLoop_inv`): its details show a sublist of them holding every key whose entry
passes the filter with a hash of its own, its hash set holds hashes of keys read, and
`next` is `bytesSubOne` of the last key read. With the key-space lemmas of
`HistoryKeys`, each call is then a `Paging.Cursor` over the keys still ahead
(`cursor_of_call`), so a client that calls again with `next` until a page is empty
stops, and its pages show every entry once, greatest key first. The keys from the
prefix up to its clamp `bytesAddOne end` are to be history keys (`HistoryKeys`), as the
schema writes them: the iterator visits a key equal to its target first, and a key of
another shape there would fail to decode.

The pool's transactions are read as a list; the sender a signature gives is a
parameter, as in `Core.StateProcessor`, and a missing receipt or deposit list is the
nil dereference it is in the source.
-/

namespace Core.TxHistory

open State BigEndian

/-- `types.MinorBlock` as the history reads it. -/
structure HistoryBlock where
  hash : Hash
  time : Nat
  transactions : List EvmTransaction

/-- What the history reads of the chain: the `EnableTransactionHistory` flag, the
canonical block at a height, the confirmed deposits and the receipts, the sender a
signature gives, and the pool's transactions. -/
structure HistoryChain where
  enableTransactionHistory : Bool
  getBlockByNumber : Nat → Option HistoryBlock
  readConfirmedCrossShardTxList : Hash → Option (List CrossShardTransactionDeposit)
  readReceipt : Hash → Option Receipt
  sender : EvmTransaction → Except Failure Recipient
  txPool : List EvmTransaction

/-- `rpc.TransactionDetail`. -/
structure TransactionDetail where
  txHash : Hash
  fromAddress : Address
  toAddress : Option Address
  value : Nat
  blockHeight : Nat
  timestamp : Nat
  success : Bool
  gasTokenID : Nat
  transferTokenID : Nat
  isFromRootChain : Bool
deriving DecidableEq, Repr

inductive GetTxDetailType where
  | getAllTransaction
  | getTxFromAddress
deriving DecidableEq, Repr

/-- What a history key names: a confirmed deposit or an in-shard transaction of the
canonical block at its height. -/
inductive Entry where
  | deposit (height : Nat) (block : HistoryBlock) (tx : CrossShardTransactionDeposit)
  | transaction (height : Nat) (block : HistoryBlock) (tx : EvmTransaction)

/-- The closure `skipXShard` of `getTransactionDetails`. -/
def skipXShard (skipCoinbaseRewards : Bool) (transferTokenID : Option Nat)
    (xShardTx : CrossShardTransactionDeposit) : Bool :=
  if xShardTx.isFromRootChain then skipCoinbaseRewards || xShardTx.value % 2 ^ 64 == 0
  else
    match transferTokenID with
    | some id => xShardTx.transferTokenID != id
    | none => false

/-- The closure `skipTx` of `getTransactionDetails`. -/
def skipTx (transferTokenID : Option Nat) (tx : EvmTransaction) : Bool :=
  match transferTokenID with
  | some id => tx.transferTokenID != id
  | none => false

namespace Entry

def txHash : Entry → Hash
  | .deposit _ _ tx => tx.txHash
  | .transaction _ _ tx => tx.hash

def crossShard : Entry → Bool
  | .deposit .. => true
  | .transaction .. => false

def skipped (skipCoinbaseRewards : Bool) (transferTokenID : Option Nat) : Entry → Bool
  | .deposit _ _ tx => skipXShard skipCoinbaseRewards transferTokenID tx
  | .transaction _ _ tx => skipTx transferTokenID tx

/-- The detail the loop appends for an entry; an in-shard transaction's needs its
sender and its receipt. -/
def detail (r : HistoryChain) : Entry → Except Failure TransactionDetail
  | .deposit height mBlock tx =>
    pure
      { txHash := tx.txHash, fromAddress := tx.fromAddr, toAddress := some tx.toAddr,
        value := tx.value, blockHeight := height, timestamp := mBlock.time, success := true,
        gasTokenID := tx.gasTokenID, transferTokenID := tx.transferTokenID,
        isFromRootChain := tx.isFromRootChain }
  | .transaction height mBlock evmTx => do
    let sender ← r.sender evmTx
    let some receipt := r.readReceipt evmTx.hash
      | throw (.panic "invalid memory address or nil pointer dereference")
    pure
      { txHash := evmTx.hash, fromAddress := ⟨sender, evmTx.fromFullShardKey⟩,
        toAddress := evmTx.recipient.map (fun recipient => ⟨recipient, evmTx.toFullShardKey⟩),
        value := evmTx.amount, blockHeight := height, timestamp := mBlock.time,
        success := !receipt.failed, gasTokenID := evmTx.gasTokenID,
        transferTokenID := evmTx.transferTokenID, isFromRootChain := false }

end Entry

/-- The first half of the loop's body: decode the key and find the entry it names. -/
def locate (r : HistoryChain) (getTxType : GetTxDetailType) (key : List UInt8) :
    Except Failure Entry := do
  let (height, crossShard, index) ← match getTxType with
    | .getTxFromAddress => decodeTxKey key addressTxKey.length 20
    | .getAllTransaction => decodeTxKey key allTxKey.length 0
  let some mBlock := r.getBlockByNumber height | throw (.error "get minBlock failed")
  if crossShard then
    let some xShardReceiveTxList := r.readConfirmedCrossShardTxList mBlock.hash
      | throw (.panic "invalid memory address or nil pointer dereference")
    if h : index < xShardReceiveTxList.length % 2 ^ 32 then
      pure (.deposit height mBlock
        (xShardReceiveTxList.get ⟨index, Nat.lt_of_lt_of_le h (Nat.mod_le _ _)⟩))
    else throw (.error "tx's index bigger than txs's len ")
  else
    let some tx := mBlock.transactions[index]? | throw (.panic "index out of range")
    pure (.transaction height mBlock tx)

/-- The variables of the loop. -/
structure DetailsState where
  txList : List TransactionDetail
  next : List UInt8
  limit : BitVec 32
  txHashes : List Hash

section Loop

variable (r : HistoryChain) (getTxType : GetTxDetailType) (skipCoinbaseRewards : Bool)
  (transferTokenID : Option Nat)

/-- The loop's body at a key not below `end`. -/
def detailsStep (key : List UInt8) (st : DetailsState) : Except Failure DetailsState := do
  let e ← locate r getTxType key
  let st ← if e.txHash ∉ st.txHashes ∧ e.skipped skipCoinbaseRewards transferTokenID = false then do
      let d ← e.detail r
      pure { st with
        limit := st.limit - 1
        txHashes := if e.crossShard then e.txHash :: st.txHashes else st.txHashes
        txList := st.txList ++ [d] }
    else pure st
  pure { st with next := bytesSubOne key }

def detailsLoop (endKey : List UInt8) :
    List (List UInt8) → DetailsState → Except Failure DetailsState
  | [], st => pure st
  | key :: keys, st =>
    if key < endKey then pure st
    else do
      let st ← detailsStep r getTxType skipCoinbaseRewards transferTokenID key st
      if st.limit = 0 then pure st else detailsLoop endKey keys st

def getTransactionDetails (db : Database) (start endKey : List UInt8) (limit : BitVec 32) :
    Except Failure (List TransactionDetail × List UInt8) := do
  let st ← detailsLoop r getTxType skipCoinbaseRewards transferTokenID endKey
    (db.seekForPrev start) ⟨[], endKey, limit, []⟩
  pure (st.txList, st.next)

end Loop

/-- The closure `needStore` of `getPendingTxByAddress`. -/
def needStore (address : Address) (transferTokenID : Option Nat) (sender : Recipient)
    (tx : EvmTransaction) : Bool :=
  (sender == address.recipient || tx.recipient == some address.recipient) &&
    match transferTokenID with
    | none => true
    | some id => id == tx.transferTokenID

def getPendingTxByAddress (r : HistoryChain) (address : Address) (transferTokenID : Option Nat) :
    Except Failure (List TransactionDetail × List UInt8) := do
  let txList ← r.txPool.foldlM (fun txList tx => do
    let sender ← r.sender tx
    if needStore address transferTokenID sender tx then
      pure (txList ++
        [{ txHash := tx.hash, fromAddress := ⟨sender, tx.fromFullShardKey⟩,
           toAddress := tx.recipient.map (fun recipient => ⟨recipient, tx.toFullShardKey⟩),
           value := tx.amount, blockHeight := 0, timestamp := 0, success := false,
           gasTokenID := tx.gasTokenID, transferTokenID := tx.transferTokenID,
           isFromRootChain := false }])
    else pure txList) []
  pure (txList, [])

def getTransactionByAddress (r : HistoryChain) (db : Database) (address : Address)
    (transferTokenID : Option Nat) (start : List UInt8) (limit : BitVec 32) :
    Except Failure (List TransactionDetail × List UInt8) :=
  if !r.enableTransactionHistory then pure ([], [])
  else if start = [1] then getPendingTxByAddress r address transferTokenID
  else
    let endKey := addressTxKey ++ fixed 20 address.recipient
    let originalStartBytes := bytesAddOne endKey
    getTransactionDetails r .getTxFromAddress false transferTokenID db
      (clampStart originalStartBytes start) endKey limit

def getAllTx (r : HistoryChain) (db : Database) (start : List UInt8) (limit : BitVec 32) :
    Except Failure (List TransactionDetail × List UInt8) :=
  if !r.enableTransactionHistory then pure ([], [])
  else
    let endKey := allTxKey
    let originalStartBytes := bytesAddOne endKey
    getTransactionDetails r .getAllTransaction true none db (clampStart originalStartBytes start)
      endKey limit

section Spec

variable (r : HistoryChain) (getTxType : GetTxDetailType) (skipCoinbaseRewards : Bool)
  (transferTokenID : Option Nat)

/-- The key names an entry of a canonical block, and the entry's detail can be read. -/
def Readable (key : List UInt8) : Prop :=
  ∃ e d, locate r getTxType key = .ok e ∧ e.detail r = .ok d

/-- A page shows `d` for `key`: the key names an entry the filter keeps, with detail `d`. -/
def Shows (key : List UInt8) (d : TransactionDetail) : Prop :=
  ∃ e, locate r getTxType key = .ok e ∧ e.skipped skipCoinbaseRewards transferTokenID = false ∧
    e.detail r = .ok d

/-- Among `keys`, `key` names an entry the filter keeps, with a hash that the entry of no
other key has. -/
def Kept (keys : List (List UInt8)) (key : List UInt8) : Prop :=
  ∃ e, locate r getTxType key = .ok e ∧ e.skipped skipCoinbaseRewards transferTokenID = false ∧
    ∀ k ∈ keys, k ≠ key → ∀ e', locate r getTxType k = .ok e' → e'.txHash ≠ e.txHash

/-- What a page keeps after reading the keys `P` from `⟨[], endKey, limit, []⟩`: its
details show a sublist of `P` that holds every key kept among them, its hash set holds
hashes of entries of `P`, `limit` has gone down by one for each detail, and `next` is
`bytesSubOne` of the last key read. -/
structure PageInv (endKey : List UInt8) (limit : BitVec 32) (P : List (List UInt8))
    (st : DetailsState) : Prop where
  selects : Paging.Selects (Shows r getTxType skipCoinbaseRewards transferTokenID)
    (Kept r getTxType skipCoinbaseRewards transferTokenID) P st.txList
  hashes : ∀ h ∈ st.txHashes, ∃ k ∈ P, ∃ e, locate r getTxType k = .ok e ∧ e.txHash = h
  count : st.limit.toNat + st.txList.length = limit.toNat
  next : st.next = (P.getLast?.map bytesSubOne).getD endKey

variable {r getTxType skipCoinbaseRewards transferTokenID} {endKey key : List UInt8}
  {limit : BitVec 32} {P : List (List UInt8)} {st : DetailsState} {e : Entry}
  {d : TransactionDetail}

theorem Kept.mono {keys seg : List (List UInt8)} (hsub : seg ⊆ keys)
    (h : Kept r getTxType skipCoinbaseRewards transferTokenID keys key) :
    Kept r getTxType skipCoinbaseRewards transferTokenID seg key := by
  obtain ⟨e, hloc, hskip, huniq⟩ := h
  exact ⟨e, hloc, hskip, fun k hk => huniq k (hsub hk)⟩

theorem toNat_limit_sub_one {x : BitVec 32} (hx : x ≠ 0) : (x - 1).toNat = x.toNat - 1 := by
  have hpos := BitVec.toNat_pos_of_ne_zero hx
  rw [BitVec.toNat_sub_of_le (by rw [BitVec.le_def]; simp; omega)]
  simp

/-- The hashes a page holds come from the keys read, so also from more keys. -/
theorem PageInv.hashes_append
    (hinv : PageInv r getTxType skipCoinbaseRewards transferTokenID endKey limit P st)
    (key : List UInt8) :
    ∀ h ∈ st.txHashes, ∃ k ∈ P ++ [key], ∃ e, locate r getTxType k = .ok e ∧ e.txHash = h := by
  intro h hh
  obtain ⟨k, hk, e', he'⟩ := hinv.hashes h hh
  exact ⟨k, List.mem_append_left _ hk, e', he'⟩

theorem pageInv_init :
    PageInv r getTxType skipCoinbaseRewards transferTokenID endKey limit [] ⟨[], endKey, limit, []⟩ where
  selects := ⟨[], List.Sublist.slnil, .nil, by simp⟩
  hashes := by simp
  count := by simp
  next := rfl

/-- A key whose entry is appended joins the keys shown. -/
theorem PageInv.keep (hinv : PageInv r getTxType skipCoinbaseRewards transferTokenID endKey limit P st)
    (hloc : locate r getTxType key = .ok e) (hdet : e.detail r = .ok d)
    (hkeep : e.txHash ∉ st.txHashes ∧ e.skipped skipCoinbaseRewards transferTokenID = false)
    (hlimit : st.limit ≠ 0) :
    PageInv r getTxType skipCoinbaseRewards transferTokenID endKey limit (P ++ [key])
      ⟨st.txList ++ [d], bytesSubOne key, st.limit - 1,
        if e.crossShard then e.txHash :: st.txHashes else st.txHashes⟩ where
  selects := by
    obtain ⟨ks, hsub, hR, hall⟩ := hinv.selects
    refine ⟨ks ++ [key], hsub.append (List.Sublist.refl _),
      List.rel_append hR (.cons ⟨e, hloc, hkeep.2, hdet⟩ .nil), fun k hk hkept => ?_⟩
    rcases List.mem_append.mp hk with hk | hk
    · exact List.mem_append_left _ (hall k hk (hkept.mono (List.subset_append_left _ _)))
    · exact List.mem_append_right _ hk
  hashes := by
    intro h hh
    by_cases hc : e.crossShard = true
    · rw [if_pos hc] at hh
      rcases List.mem_cons.mp hh with rfl | hh
      · exact ⟨key, List.mem_append_right _ (List.mem_singleton_self key), e, hloc, rfl⟩
      · exact hinv.hashes_append key h hh
    · rw [if_neg hc] at hh
      exact hinv.hashes_append key h hh
  count := by
    have hc := hinv.count
    have hpos := BitVec.toNat_pos_of_ne_zero hlimit
    simp only [toNat_limit_sub_one hlimit, List.length_append, List.length_singleton]
    omega
  next := by simp

/-- A key whose entry is skipped, or whose hash the page has shown, adds no detail: a
key kept among the keys read would have had neither. -/
theorem PageInv.skip (hinv : PageInv r getTxType skipCoinbaseRewards transferTokenID endKey limit P st)
    (hloc : locate r getTxType key = .ok e)
    (hkeep : ¬(e.txHash ∉ st.txHashes ∧ e.skipped skipCoinbaseRewards transferTokenID = false))
    (hkey : key ∉ P) :
    PageInv r getTxType skipCoinbaseRewards transferTokenID endKey limit (P ++ [key])
      { st with next := bytesSubOne key } where
  selects := by
    obtain ⟨ks, hsub, hR, hall⟩ := hinv.selects
    refine ⟨ks, hsub.trans (List.sublist_append_left P [key]), hR, fun k hk hkept => ?_⟩
    rcases List.mem_append.mp hk with hk | hk
    · exact hall k hk (hkept.mono (List.subset_append_left _ _))
    · obtain rfl := List.mem_singleton.mp hk
      obtain ⟨e', hloc', hskip, huniq⟩ := hkept
      obtain rfl : e' = e := Except.ok.inj (hloc'.symm.trans hloc)
      have hdup : e'.txHash ∈ st.txHashes := by
        by_contra hnot
        exact hkeep ⟨hnot, hskip⟩
      -- the hash came from an earlier key, whose entry then shares it
      obtain ⟨k', hk', e'', hloc'', hh⟩ := hinv.hashes _ hdup
      exact absurd hh (huniq k' (List.mem_append_left _ hk') (fun h => hkey (h ▸ hk')) e'' hloc'')
  hashes := hinv.hashes_append key
  count := hinv.count
  next := by simp

theorem detailsStep_inv (hinv : PageInv r getTxType skipCoinbaseRewards transferTokenID endKey limit P st)
    (hread : Readable r getTxType key) (hkey : key ∉ P) (hlimit : st.limit ≠ 0) :
    ∃ st', detailsStep r getTxType skipCoinbaseRewards transferTokenID key st = .ok st' ∧
      PageInv r getTxType skipCoinbaseRewards transferTokenID endKey limit (P ++ [key]) st' := by
  obtain ⟨e, d, hloc, hdet⟩ := hread
  by_cases hkeep : e.txHash ∉ st.txHashes ∧ e.skipped skipCoinbaseRewards transferTokenID = false
  · refine ⟨_, ?_, hinv.keep hloc hdet hkeep hlimit⟩
    simp only [detailsStep, hloc, hdet, if_pos hkeep, Except.ok_bind, Except.pure_eq_ok]
  · refine ⟨_, ?_, hinv.skip hloc hkeep hkey⟩
    simp only [detailsStep, hloc, if_neg hkeep, Except.ok_bind, Except.pure_eq_ok]

/-- The loop, from a page state, reads a first part of the keys not below `endKey` and
stops before their end only once `limit` is zero. -/
theorem detailsLoop_inv {M : List (List UInt8)} (hM : ∀ m ∈ M.head?, m < endKey)
    (L : List (List UInt8)) (hL : ∀ k ∈ L, endKey ≤ k ∧ Readable r getTxType k)
    (hinv : PageInv r getTxType skipCoinbaseRewards transferTokenID endKey limit P st)
    (hlimit : st.limit ≠ 0) (hnd : (P ++ L).Nodup) :
    ∃ seg rest st', L = seg ++ rest ∧
      detailsLoop r getTxType skipCoinbaseRewards transferTokenID endKey (L ++ M) st = .ok st' ∧
      PageInv r getTxType skipCoinbaseRewards transferTokenID endKey limit (P ++ seg) st' ∧
      (rest ≠ [] → st'.limit = 0) ∧ (seg = [] → st' = st) := by
  induction L generalizing P st with
  | nil =>
    refine ⟨[], [], st, rfl, ?_, by simpa using hinv, fun h => absurd rfl h, fun _ => rfl⟩
    -- the keys after the window are below `endKey`, so the loop stops at once
    cases M with
    | nil => rfl
    | cons m M => simp [detailsLoop, hM m rfl]
  | cons key L ih =>
    obtain ⟨hle, hread⟩ := hL key List.mem_cons_self
    have hkey : key ∉ P := fun hk => List.disjoint_of_nodup_append hnd hk List.mem_cons_self
    obtain ⟨st₁, hstep, hinv₁⟩ := detailsStep_inv hinv hread hkey hlimit
    have hrun : detailsLoop r getTxType skipCoinbaseRewards transferTokenID endKey
        (key :: L ++ M) st = if st₁.limit = 0 then .ok st₁
          else detailsLoop r getTxType skipCoinbaseRewards transferTokenID endKey (L ++ M) st₁ := by
      simp only [List.cons_append, detailsLoop, if_neg (List.not_lt.mpr hle), hstep,
        Except.ok_bind]
      split <;> rfl
    by_cases h0 : st₁.limit = 0
    · exact ⟨[key], L, st₁, rfl, by rw [hrun, if_pos h0], hinv₁, fun _ => h0,
        fun h => absurd h (List.cons_ne_nil _ _)⟩
    · obtain ⟨seg, rest, st', rfl, hloop, hinv', hfull, -⟩ :=
        ih (fun k hk => hL k (List.mem_cons_of_mem _ hk)) hinv₁ h0 (by simpa using hnd)
      exact ⟨key :: seg, rest, st', rfl, by rw [hrun, if_neg h0, hloop], by simpa using hinv',
        hfull, fun h => absurd h (List.cons_ne_nil _ _)⟩

variable (skipCoinbaseRewards transferTokenID) in
/-- One call from a start at most the clamp reads a first part of the window below the
start, and leaves a rest only after a full page. -/
theorem getTransactionDetails_call {db : Database} {p start : List UInt8}
    (hread : ∀ k ∈ db.keys, p ≤ k → k ≤ bytesAddOne p → Readable r getTxType k)
    (hstart : start ≤ bytesAddOne p) (hlimit : limit ≠ 0) :
    ∃ seg rest st', db.window p start = seg ++ rest ∧
      getTransactionDetails r getTxType skipCoinbaseRewards transferTokenID db start p limit =
        .ok (st'.txList, st'.next) ∧
      PageInv r getTxType skipCoinbaseRewards transferTokenID p limit seg st' ∧
      (rest ≠ [] → st'.limit = 0) ∧ (seg = [] → rest = []) := by
  obtain ⟨below, hseek, hbelow⟩ := db.seekForPrev_eq p start
  have hL : ∀ k ∈ db.window p start, p ≤ k ∧ Readable r getTxType k := fun k hk => by
    obtain ⟨hkdb, hlo, hhi⟩ := Database.mem_window.mp hk
    exact ⟨hlo, hread k hkdb hlo (List.le_trans hhi hstart)⟩
  have hnd : ([] ++ db.window p start).Nodup := by
    refine (db.window_pairwise p start).imp fun {a b} hba hab => ?_
    subst hab
    exact List.lt_irrefl _ hba
  obtain ⟨seg, rest, st', hsplit, hloop, hinv, hfull, hnil⟩ :=
    detailsLoop_inv (fun m hm => hbelow m (List.mem_of_mem_head? hm)) _ hL pageInv_init hlimit hnd
  refine ⟨seg, rest, st', hsplit, ?_, by simpa using hinv, hfull, fun hseg => ?_⟩
  · simp only [getTransactionDetails, hseek, hloop, Except.ok_bind, Except.pure_eq_ok]
  · -- a call that reads nothing still has its whole `limit`
    by_contra hrest
    have h0 := hfull hrest
    rw [hnil hseg] at h0
    exact hlimit h0

/-- The cursor `start` stands before `l`: it is not the pool's marker `[1]`, and `l` is
the window below the clamped start. -/
def At (db : Database) (p start : List UInt8) (l : List (List UInt8)) : Prop :=
  start ≠ [1] ∧ l = db.window p (clampStart (bytesAddOne p) start)

/-- After a call, `next` stands before the keys the call left. -/
theorem at_next {db : Database} {p start : List UInt8} {seg rest : List (List UInt8)}
    (hp : KeyPrefix p) (hs : db.Shaped p) (hstart : start ≤ bytesAddOne p)
    (hsplit : db.window p start = seg ++ rest) (hnil : seg = [] → rest = []) :
    At db p ((seg.getLast?.map bytesSubOne).getD p) rest := by
  rcases List.eq_nil_or_concat' seg with rfl | ⟨pre, k, rfl⟩
  · -- nothing read: the prefix itself is the cursor, and nothing is left
    obtain rfl := hnil rfl
    have hne : p ≠ [1] := by
      rintro rfl
      exact absurd hp.two_le (by decide)
    have hle : p ≤ bytesAddOne p := List.le_of_lt (by simpa using hp.lt_bytesAddOne [])
    have hpne : p ≠ [] := List.ne_nil_of_length_pos hp.length_pos
    refine ⟨hne, ?_⟩
    simp only [List.getLast?_nil, Option.map_none, Option.getD_none]
    rw [clampStart_of_le hpne hle, window_self hp hs]
  · have hk : k ∈ db.window p start := by simp [hsplit]
    obtain ⟨hkdb, hlo, hhi⟩ := Database.mem_window.mp hk
    obtain ⟨t, rfl, ht⟩ := hs _ hkdb hlo (List.le_trans hhi hstart)
    have hlen : (bytesSubOne (p ++ t)).length = p.length + 9 := by
      rw [hp.length_bytesSubOne t, List.length_append, ht]
    have hle : bytesSubOne (p ++ t) ≤ bytesAddOne p :=
      List.le_trans (List.le_of_lt (hp.bytesSubOne_lt t)) (List.le_trans hhi hstart)
    have hne : bytesSubOne (p ++ t) ≠ [] := fun h => by
      rw [h, List.length_nil] at hlen
      omega
    have hpairs := db.window_pairwise p start
    rw [hsplit, List.append_assoc, List.singleton_append] at hpairs
    simp only [List.getLast?_concat, Option.map_some, Option.getD_some]
    refine ⟨fun h => by rw [h, List.length_singleton] at hlen; omega, ?_⟩
    rw [clampStart_of_le hne hle, window_bytesSubOne hp hs hstart hk, hsplit, List.append_assoc,
      List.singleton_append, filter_lt_of_pairwise_gt hpairs]

/-- Each call, at a cursor that is no marker, is the loop from the clamped start: then
the calls page through the keys of the window. -/
theorem cursor_of_call {db : Database} {p : List UInt8}
    {call : List UInt8 → Except Failure (List TransactionDetail × List UInt8)}
    (hcall : ∀ start, start ≠ [1] → call start = getTransactionDetails r getTxType
      skipCoinbaseRewards transferTokenID db (clampStart (bytesAddOne p) start) p limit)
    (hp : KeyPrefix p) (hs : db.Shaped p)
    (hread : ∀ k ∈ db.keys, p ≤ k → k ≤ bytesAddOne p → Readable r getTxType k)
    (hlimit : limit ≠ 0) :
    Paging.Cursor call (At db p) (Paging.Selects (Shows r getTxType skipCoinbaseRewards
      transferTokenID) (Kept r getTxType skipCoinbaseRewards transferTokenID)) limit.toNat where
  call_at := by
    rintro c l ⟨hc, rfl⟩
    have hstart := clampStart_le (bytesAddOne p) c
    obtain ⟨seg, rest, st', hsplit, hcall', hinv, hfull, hnil⟩ :=
      getTransactionDetails_call skipCoinbaseRewards transferTokenID hread hstart hlimit
    have hcount := hinv.count
    refine ⟨seg, rest, st'.txList, st'.next, hsplit, (hcall c hc).trans hcall', ?_,
      hinv.selects, by omega, fun hrest => ?_⟩
    · rw [hinv.next]
      exact at_next hp hs hstart hsplit hnil
    · rw [hfull hrest] at hcount
      simpa using hcount
  emits_nil := Paging.Selects.nil

/-- The client's run from an empty start stops, each of its pages holds at most `limit`
details, and its pages show, in order, the details of a sublist of `keys` in
decreasing order that holds every key kept among `keys`. -/
def PagesOnce (call : List UInt8 → Except Failure (List TransactionDetail × List UInt8))
    (Shows : List UInt8 → TransactionDetail → Prop)
    (Kept : List (List UInt8) → List UInt8 → Prop) (keys : List (List UInt8))
    (limit : BitVec 32) : Prop :=
  ∃ pages, Paging.Run call [] pages ∧ (∀ page ∈ pages, page.length ≤ limit.toNat) ∧
    ∃ ks, ks.Sublist keys ∧ ks.Pairwise (fun a b => b < a) ∧
      List.Forall₂ Shows ks pages.flatten ∧ ∀ k ∈ keys, Kept keys k → k ∈ ks

/-- The keys from the prefix `p` up to its clamp `bytesAddOne p` are `p` followed by
nine bytes, and they name entries of canonical blocks whose details can be read. -/
def HistoryKeys (r : HistoryChain) (getTxType : GetTxDetailType) (db : Database)
    (p : List UInt8) : Prop :=
  db.Shaped p ∧ ∀ k ∈ db.keys, p ≤ k → k ≤ bytesAddOne p → Readable r getTxType k

theorem pagesOnce_of_call {db : Database} {p : List UInt8}
    {call : List UInt8 → Except Failure (List TransactionDetail × List UInt8)}
    (hcall : ∀ start, start ≠ [1] → call start = getTransactionDetails r getTxType
      skipCoinbaseRewards transferTokenID db (clampStart (bytesAddOne p) start) p limit)
    (hp : KeyPrefix p) (hkeys : HistoryKeys r getTxType db p) (hlimit : limit ≠ 0) :
    PagesOnce call (Shows r getTxType skipCoinbaseRewards transferTokenID)
      (Kept r getTxType skipCoinbaseRewards transferTokenID) (db.under p) limit := by
  have hC := cursor_of_call hcall hp hkeys.1 hkeys.2 hlimit
  have hpos := BitVec.toNat_pos_of_ne_zero hlimit
  have hat : At db p [] (db.under p) := ⟨by simp, by rw [clampStart_nil, window_clamp hp hkeys.1]⟩
  obtain ⟨segs, pages, hrun, hflat, hall, hle⟩ := hC.run hpos hat
  obtain ⟨ks, hsub, hR, hkept⟩ := Paging.selects_flatten
    (Q := Kept r getTxType skipCoinbaseRewards transferTokenID) (fun _ _ _ hsub hk => hk.mono hsub) hall
  rw [← hflat] at hsub hkept
  exact ⟨pages, hrun, hle, ks, hsub, (db.under_pairwise p).sublist hsub, hR, hkept⟩

end Spec

/-- Paged from an empty start with `next`, `GetTransactionByAddress` and `GetAllTx` stop,
return at most `limit` details a call, and show each entry under the prefix that passes
the filter with a hash of its own once, greatest key first, when every key from the
prefix up to its clamp is a history key of a canonical block. -/
theorem txHistory_pages_show_each_entry_once (r : HistoryChain) (db : Database)
    (henable : r.enableTransactionHistory = true) (limit : BitVec 32) (hlimit : limit ≠ 0) :
    (∀ (address : Address) (transferTokenID : Option Nat),
      HistoryKeys r .getTxFromAddress db (addressPrefix address.recipient) →
      PagesOnce (fun start => getTransactionByAddress r db address transferTokenID start limit)
        (Shows r .getTxFromAddress false transferTokenID)
        (Kept r .getTxFromAddress false transferTokenID)
        (db.under (addressPrefix address.recipient)) limit) ∧
    (HistoryKeys r .getAllTransaction db allTxKey →
      PagesOnce (fun start => getAllTx r db start limit) (Shows r .getAllTransaction true none)
        (Kept r .getAllTransaction true none) (db.under allTxKey) limit) := by
  constructor
  · intro address transferTokenID hkeys
    refine pagesOnce_of_call (fun start hstart => ?_) (keyPrefix_addressPrefix _) hkeys hlimit
    simp [getTransactionByAddress, henable, hstart, addressPrefix]
  · intro hkeys
    refine pagesOnce_of_call (fun start _ => ?_) keyPrefix_allTxKey hkeys hlimit
    simp [getAllTx, henable]

/-- A transaction for the runs below. -/
def sampleTx : EvmTransaction where
  accountNonce := 0
  price := 1
  gasLimit := 21000
  recipient := some 2
  amount := 5
  payload := []
  networkId := 1
  fromFullShardKey := 0
  toFullShardKey := 0
  gasTokenID := 0
  transferTokenID := 0
  fromShardSize := 1
  toShardSize := 1
  hash := 11

/-- A chain whose block at height 1 holds `sampleTx`. -/
def sampleChain : HistoryChain where
  enableTransactionHistory := true
  getBlockByNumber := fun n => if n = 1 then some ⟨7, 100, [sampleTx]⟩ else none
  readConfirmedCrossShardTxList := fun _ => none
  readReceipt := fun _ => some ⟨false, 21000, 11, 21000, 0, 0⟩
  sender := fun _ => .ok 1
  txPool := []

/-- The all-transactions key of `sampleTx`. -/
def sampleDatabase : Database := ⟨[encodeAllTxKey 1 0 false], by decide⟩

theorem sample_historyKeys : HistoryKeys sampleChain .getAllTransaction sampleDatabase allTxKey := by
  refine ⟨fun k hk _ _ => ?_, fun k hk _ _ => ?_⟩
  · obtain rfl : k = encodeAllTxKey 1 0 false := List.mem_singleton.mp hk
    exact ⟨txKeySuffix 1 0 false, encodeAllTxKey_eq 1 0 false, length_txKeySuffix 1 0 false⟩
  · obtain rfl : k = encodeAllTxKey 1 0 false := List.mem_singleton.mp hk
    exact ⟨_, _, rfl, rfl⟩

theorem txHistory_pages_on_sample_chain :
    sampleChain.enableTransactionHistory = true ∧ (1 : BitVec 32) ≠ 0 ∧
      HistoryKeys sampleChain .getAllTransaction sampleDatabase allTxKey ∧
      PagesOnce (fun start => getAllTx sampleChain sampleDatabase start 1)
        (Shows sampleChain .getAllTransaction true none)
        (Kept sampleChain .getAllTransaction true none) (sampleDatabase.under allTxKey) 1 :=
  ⟨rfl, by decide, sample_historyKeys,
    (txHistory_pages_show_each_entry_once sampleChain sampleDatabase rfl 1 (by decide)).2
      sample_historyKeys⟩

end Core.TxHistory
