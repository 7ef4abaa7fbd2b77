import GoQuarkChain.Core.ValidateTx

/-!
# Promotion and demotion in the transaction pool

`txList` keeps one account's transactions by nonce, with caps on the highest cost
and gas limit it has held. `Filter` returns nothing when the caps are within the
limits it is given, and otherwise removes every transaction over them. Both
`promoteExecutables` and `demoteUnexecutables` filter with the account's balance of
the default chain token and the pool's gas limit, against `Cost`: the value plus
the gas at its price, whatever tokens the transaction moves and pays with.
`ValidateTransaction`, which the pool runs to admit a transaction, checks each
token's own balance instead. For a transaction in the default token the two tests
agree (`validateTransaction_ok_not_unpayable`); for another token, a transaction
that `ValidateTransaction` accepts is dropped at its first promotion
(`promoteExecutables_drops_valid_token_tx`).

The price heap (`pool.priced`), the heartbeats and the events are not modelled:
they decide nothing of which transactions stay. The accounts that
`demoteUnexecutables` visits, in the order of a Go map, are an argument.
-/

namespace Core

open State

/-- `Cost`: the value plus the gas at its price, whatever the tokens. -/
def EvmTransaction.cost (tx : EvmTransaction) : Nat := tx.price * tx.gasLimit + tx.amount

/-- `txList`, one account's transactions keyed by nonce. The caps bound every
transaction held, which is what lets `Filter` return early. -/
structure TxList where
  strict : Bool
  txs : SortedMap Nat EvmTransaction
  costcap : Int
  gascap : Nat
  keyed : ∀ {n tx}, txs.get? n = some tx → tx.accountNonce = n
  caps : ∀ {n tx}, txs.get? n = some tx → (tx.cost : Int) ≤ costcap ∧ tx.gasLimit ≤ gascap

def errReplaceUnderpriced : Failure := .error "replacement transaction underpriced"

namespace TxList

/-- `newTxList`. -/
def newTxList (strict : Bool) : TxList where
  strict := strict
  txs := SortedMap.empty
  costcap := 0
  gascap := 0
  keyed := by simp
  caps := by simp

/-- Keep the transactions on which `p` is false; return the others in nonce order. -/
def removeWhere (l : TxList) (p : EvmTransaction → Bool) : List EvmTransaction × TxList :=
  (l.txs.values.filter p,
    { l with
      txs := l.txs.filter fun _ tx => !p tx
      keyed := fun h => l.keyed (SortedMap.get?_filter_eq_some.mp h).1
      caps := fun h => l.caps (SortedMap.get?_filter_eq_some.mp h).1 })

/-- `txSortedMap.Put` with the caps raised to the transaction. -/
def put (l : TxList) (tx : EvmTransaction) : TxList where
  strict := l.strict
  txs := l.txs.insert tx.accountNonce tx
  costcap := max l.costcap tx.cost
  gascap := max l.gascap tx.gasLimit
  keyed := by
    intro n tx' h
    rw [SortedMap.get?_insert] at h
    split_ifs at h with hn
    · cases h
      exact hn.symm
    · exact l.keyed h
  caps := by
    intro n tx' h
    rw [SortedMap.get?_insert] at h
    split_ifs at h with hn
    · cases h
      exact ⟨le_max_right _ _, le_max_right _ _⟩
    · have := l.caps h
      exact ⟨le_max_of_le_left this.1, le_max_of_le_left this.2⟩

/-- `txList.Add`: a transaction at a used nonce replaces the old one only when its
price is higher, and by at least `priceBump` percent. -/
def add (l : TxList) (tx : EvmTransaction) (priceBump : Nat) :
    Bool × Option EvmTransaction × TxList :=
  match l.txs.get? tx.accountNonce with
  | some old =>
    if tx.price ≤ old.price ∨ tx.price < old.price * (100 + priceBump) / 100 then (false, none, l)
    else (true, some old, l.put tx)
  | none => (true, none, l.put tx)

/-- `txList.Forward`: remove the transactions below a nonce. -/
def forward (l : TxList) (threshold : Nat) : List EvmTransaction × TxList :=
  l.removeWhere fun tx => tx.accountNonce < threshold

/-- How many transactions of a nonce-ordered list run on from `next` without a gap. -/
def consecutiveFrom : Nat → List EvmTransaction → Nat
  | _, [] => 0
  | next, tx :: rest => if tx.accountNonce = next then consecutiveFrom (next + 1) rest + 1 else 0

/-- `txList.Ready`: remove the gapless run from the lowest nonce, if that is at most `start`. -/
def ready (l : TxList) (start : Nat) : List EvmTransaction × TxList :=
  match l.txs.entries.head? with
  | none => ([], l)
  | some (first, _) =>
    if start < first then ([], l)
    else l.removeWhere fun tx => tx.accountNonce < first + consecutiveFrom first l.txs.values

/-- `txList.Cap`: keep the `threshold` lowest nonces; the others go, highest first. -/
def cap (l : TxList) (threshold : Nat) : List EvmTransaction × TxList :=
  if l.txs.entries.length ≤ threshold then ([], l)
  else
    let r := l.removeWhere fun tx => !((l.txs.keys.take threshold).contains tx.accountNonce)
    (r.1.reverse, r.2)

/-- The test of `Filter`: over the cost limit or over the gas limit. -/
def unpayable (costLimit : Int) (gasLimit : Nat) (tx : EvmTransaction) : Bool :=
  decide (costLimit < tx.cost ∨ gasLimit < tx.gasLimit)

theorem caps_of_not_unpayable {costLimit : Int} {gasLimit : Nat} {tx : EvmTransaction}
    (h : (!unpayable costLimit gasLimit tx) = true) :
    (tx.cost : Int) ≤ costLimit ∧ tx.gasLimit ≤ gasLimit := by
  simp only [unpayable, Bool.not_eq_true', decide_eq_false_iff_not, not_or, not_lt] at h
  exact h

/-- The transactions within both limits, with the caps lowered to the limits. -/
def lowerCaps (l : TxList) (costLimit : Int) (gasLimit : Nat) : TxList where
  strict := l.strict
  txs := l.txs.filter fun _ tx => !unpayable costLimit gasLimit tx
  costcap := costLimit
  gascap := gasLimit
  keyed := fun h => l.keyed (SortedMap.get?_filter_eq_some.mp h).1
  caps := fun h => caps_of_not_unpayable (SortedMap.get?_filter_eq_some.mp h).2

/-- `txList.Filter`: the removed transactions, those of a strict list above the lowest
removed nonce, and the list left. -/
def filter (l : TxList) (costLimit : Int) (gasLimit : Nat) :
    List EvmTransaction × List EvmTransaction × TxList :=
  if l.costcap ≤ costLimit ∧ l.gascap ≤ gasLimit then ([], [], l)
  else
    let removed := l.txs.values.filter (unpayable costLimit gasLimit)
    let l := l.lowerCaps costLimit gasLimit
    if l.strict ∧ removed ≠ [] then
      let lowest := removed.foldl (fun lo tx => min lo tx.accountNonce) (2 ^ 64 - 1)
      let r := l.removeWhere fun tx => lowest < tx.accountNonce
      (removed, r.1, r.2)
    else (removed, [], l)

def len (l : TxList) : Nat := l.txs.entries.length

/-! ### What `Filter` removes and keeps -/

theorem get?_of_mem_values {l : TxList} {tx : EvmTransaction} (h : tx ∈ l.txs.values) :
    l.txs.get? tx.accountNonce = some tx := by
  obtain ⟨n, hn⟩ := SortedMap.mem_values h
  rw [l.keyed hn]
  exact hn

/-- `Filter` removes exactly the transactions over one of its limits; its early
return removes nothing, because the caps bound every transaction. -/
theorem filter_fst (l : TxList) (costLimit : Int) (gasLimit : Nat) :
    (l.filter costLimit gasLimit).1 = l.txs.values.filter (unpayable costLimit gasLimit) := by
  unfold filter
  split_ifs with hcap
  · symm
    rw [List.filter_eq_nil_iff]
    intro tx htx
    have hcaps := l.caps (get?_of_mem_values htx)
    simp only [unpayable, decide_eq_true_eq, not_or, not_lt]
    omega
  · dsimp only
    split_ifs <;> rfl

end TxList

/-- What `ValidateTransaction` accepts has the balances it checks: the value and the gas
in one token when both are that token, each in its own token otherwise. -/
theorem validateTransaction_ok_money {state : StateDB} {tx : EvmTransaction} {sender : Recipient}
    (h : validateTransaction state tx sender = .ok ()) :
    if tx.transferTokenID = tx.gasTokenID then
      ((tx.price * tx.gasLimit + tx.amount : Nat) : Int) ≤ state.getBalance sender tx.transferTokenID
    else (tx.amount : Int) ≤ state.getBalance sender tx.transferTokenID ∧
      ((tx.price * tx.gasLimit : Nat) : Int) ≤ state.getBalance sender tx.gasTokenID := by
  unfold validateTransaction at h
  simp only [bind, Except.bind, pure, Except.pure, throw, throwThe, MonadExceptOf.throw] at h
  simp only [ite_eq_iff, reduceCtorEq, and_false, false_or] at h
  obtain ⟨-, h⟩ := h
  split at h
  · -- past the intrinsic gas: the token checks, then the money checks of each branch
    simp only [ite_eq_iff, reduceCtorEq, and_false, false_or, and_true] at h
    obtain ⟨-, -, -, ⟨htok, hlow, -⟩ | ⟨htok, hlow₁, hlow₂, -⟩⟩ := h
    · rw [if_pos htok]
      push_cast
      exact not_lt.mp hlow
    · rw [if_neg htok]
      push_cast
      exact ⟨not_lt.mp hlow₁, not_lt.mp hlow₂⟩
  · cases h

/-- For a transaction that moves and pays in one token, `Filter` over the sender's balance
of that token removes it only if `ValidateTransaction` rejects it or it is over the gas
limit. -/
theorem validateTransaction_ok_not_unpayable {state : StateDB} {tx : EvmTransaction}
    {sender : Recipient} {gasLimit : Nat} (h : validateTransaction state tx sender = .ok ())
    (htok : tx.transferTokenID = tx.gasTokenID) (hgas : tx.gasLimit ≤ gasLimit) :
    TxList.unpayable (state.getBalance sender tx.transferTokenID) gasLimit tx = false := by
  have hmoney := validateTransaction_ok_money h
  rw [if_pos htok] at hmoney
  unfold TxList.unpayable EvmTransaction.cost
  rw [decide_eq_false_iff_not, not_or, not_lt, not_lt]
  exact ⟨hmoney, hgas⟩

/-- The pool's filter and `ValidateTransaction` agree on the default chain token: a
transaction in that token, within the gas limit, that `Filter` drops is one that
`ValidateTransaction` rejects. -/
theorem filter_drops_only_invalid {l : TxList} {state : StateDB} {sender : Recipient}
    {defaultToken gasLimit : Nat} {tx : EvmTransaction} (htransfer : tx.transferTokenID = defaultToken)
    (hgasToken : tx.gasTokenID = defaultToken) (hgas : tx.gasLimit ≤ gasLimit)
    (hdrop : tx ∈ (l.filter (state.getBalance sender defaultToken) gasLimit).1) :
    validateTransaction state tx sender ≠ .ok () := by
  intro h
  rw [TxList.filter_fst, List.mem_filter] at hdrop
  have hkept := validateTransaction_ok_not_unpayable h (htransfer.trans hgasToken.symm) hgas
  rw [htransfer] at hkept
  rw [hkept] at hdrop
  exact Bool.false_ne_true hdrop.2

/-- The part of `TxPoolConfig` that promotion and demotion read. -/
structure TxPoolConfig where
  priceBump : Nat
  accountQueue : Nat

/-- `TxPool`: the pending and queued lists by sender, `all` by hash, and the pending
nonces; `chainConfig` is `pool.chain.Config()`. -/
structure TxPool where
  config : TxPoolConfig
  chainConfig : Config.QuarkChainConfig
  currentState : StateDB
  currentMaxGas : Nat
  pending : Recipient → Option TxList
  queue : Recipient → Option TxList
  all : Nat → Option EvmTransaction
  pendingNonces : Recipient → Option Nat
  locals : List Recipient

namespace TxPool

/-- `pool.all.Remove` of each transaction. -/
def removeAll (pool : TxPool) (txs : List EvmTransaction) : TxPool :=
  txs.foldl (fun p tx => { p with all := Function.update p.all tx.hash none }) pool

/-- `txNoncer.get`: the pending nonce, taken from the state on first use. -/
def pendingNonce (pool : TxPool) (addr : Recipient) : Nat × TxPool :=
  match pool.pendingNonces addr with
  | some n => (n, pool)
  | none =>
    let n := pool.currentState.getNonce addr
    (n, { pool with pendingNonces := Function.update pool.pendingNonces addr (some n) })

/-- Forget the replaced transaction, and index the new one unless it is known. -/
def replaceInAll (pool : TxPool) (old : Option EvmTransaction) (hash : Nat) (tx : EvmTransaction) :
    TxPool :=
  let pool := match old with
    | some o => { pool with all := Function.update pool.all o.hash none }
    | none => pool
  if (pool.all hash).isNone then { pool with all := Function.update pool.all tx.hash (some tx) }
  else pool

/-- `enqueueTx`: insert into the sender's queue. -/
def enqueueTx (pool : TxPool) (sender : Recipient) (hash : Nat) (tx : EvmTransaction) :
    Except Failure Bool × TxPool :=
  let r := ((pool.queue sender).getD (TxList.newTxList false)).add tx pool.config.priceBump
  let pool := { pool with queue := Function.update pool.queue sender (some r.2.2) }
  if r.1 then (.ok r.2.1.isSome, pool.replaceInAll r.2.1 hash tx)
  else (.error errReplaceUnderpriced, pool)

/-- `promoteTx`: insert into the pending list and raise the pending nonce. -/
def promoteTx (pool : TxPool) (addr : Recipient) (hash : Nat) (tx : EvmTransaction) :
    Bool × TxPool :=
  let r := ((pool.pending addr).getD (TxList.newTxList true)).add tx pool.config.priceBump
  let pool := { pool with pending := Function.update pool.pending addr (some r.2.2) }
  if r.1 then
    let pool := pool.replaceInAll r.2.1 hash tx
    (true, { pool with
      pendingNonces := Function.update pool.pendingNonces addr (some (tx.accountNonce + 1)) })
  else (false, { pool with all := Function.update pool.all hash none })

/-- One account of `promoteExecutables`. -/
def promoteAccount (pool : TxPool) (addr : Recipient) : List EvmTransaction × TxPool :=
  match pool.queue addr with
  | none => ([], pool)
  | some list =>
    let (forwards, list) := list.forward (pool.currentState.getNonce addr)
    let pool := pool.removeAll forwards
    let (drops, _, list) :=
      list.filter (pool.currentState.getBalance addr pool.chainConfig.defaultChainTokenID)
        pool.currentMaxGas
    let pool := pool.removeAll drops
    let (start, pool) := pool.pendingNonce addr
    let (readies, list) := list.ready start
    let (promoted, pool) := readies.foldl (fun (acc : List EvmTransaction × TxPool) tx =>
        let r := acc.2.promoteTx addr tx.hash tx
        (if r.1 then acc.1 ++ [tx] else acc.1, r.2)) ([], pool)
    let (caps, list) := if addr ∈ pool.locals then ([], list) else list.cap pool.config.accountQueue
    let pool := pool.removeAll caps
    (promoted, { pool with
      queue := Function.update pool.queue addr (if list.len = 0 then none else some list) })

/-- `promoteExecutables`. -/
def promoteExecutables (pool : TxPool) (accounts : List Recipient) :
    List EvmTransaction × TxPool :=
  accounts.foldl (fun (acc : List EvmTransaction × TxPool) addr =>
    let r := acc.2.promoteAccount addr
    (acc.1 ++ r.1, r.2)) ([], pool)

/-- One account of `demoteUnexecutables`. -/
def demoteAccount (pool : TxPool) (addr : Recipient) : TxPool :=
  match pool.pending addr with
  | none => pool
  | some list =>
    let nonce := pool.currentState.getNonce addr
    let (olds, list) := list.forward nonce
    let pool := pool.removeAll olds
    let (drops, invalids, list) :=
      list.filter (pool.currentState.getBalance addr pool.chainConfig.defaultChainTokenID)
        pool.currentMaxGas
    let pool := pool.removeAll drops
    let pool := invalids.foldl (fun p tx => (p.enqueueTx addr tx.hash tx).2) pool
    -- a gap in front postpones every pending transaction
    let (list, pool) :=
      if list.len > 0 ∧ list.txs.get? nonce = none then
        let (gapped, list) := list.cap 0
        (list, gapped.foldl (fun p tx => (p.enqueueTx addr tx.hash tx).2) pool)
      else (list, pool)
    { pool with pending := Function.update pool.pending addr (if list.len = 0 then none else some list) }

/-- `demoteUnexecutables`, over the pending accounts in the order given. -/
def demoteUnexecutables (pool : TxPool) (accounts : List Recipient) : TxPool :=
  accounts.foldl demoteAccount pool

end TxPool

/-! ## A transaction in another token -/

namespace TokenPool

/-- Tokens `0` (the default) and `1` are allowed. -/
def tokenConfig : Config.QuarkChainConfig := { sampleConfig with allowedTokenIDs := [0, 1] }

/-- Account `1` holds a million of token `1` and none of the default token. -/
def state : StateDB :=
  { sampleState with
    accounts := fun a =>
      if a = 1 then ⟨fun t => if t = 1 then 1000000 else 0, 0, [], fun _ => 0⟩
      else ⟨fun _ => 0, 0, [], fun _ => 0⟩
    quarkChainConfig := tokenConfig }

/-- A transfer of one unit of token `1` at the sender's nonce, paying its gas in token `1`. -/
def tx : EvmTransaction :=
  { accountNonce := 0, price := 1, gasLimit := 21000, recipient := some 2, amount := 1,
    payload := [], networkId := 3, fromFullShardKey := 0, toFullShardKey := 0, gasTokenID := 1,
    transferTokenID := 1, fromShardSize := 1, toShardSize := 1, hash := 9 }

def pool : TxPool :=
  { config := ⟨10, 64⟩, chainConfig := tokenConfig, currentState := state, currentMaxGas := 30000,
    pending := fun _ => none, queue := fun _ => none, all := fun _ => none,
    pendingNonces := fun _ => none, locals := [] }

end TokenPool

open TokenPool in
/-- `ValidateTransaction` accepts `tx` and the pool queues it; the first promotion filters
it with the default-token balance, zero, against its cost, and drops it from the pool. -/
theorem promoteExecutables_drops_valid_token_tx :
    validateTransaction state tx 1 = .ok () ∧ tx.gasLimit ≤ pool.currentMaxGas ∧
    (pool.enqueueTx 1 tx.hash tx).1 = .ok false ∧
    (pool.enqueueTx 1 tx.hash tx).2.all tx.hash = some tx ∧
    ((pool.enqueueTx 1 tx.hash tx).2.promoteExecutables [1]).1 = [] ∧
    ((pool.enqueueTx 1 tx.hash tx).2.promoteExecutables [1]).2.all tx.hash = none ∧
    ((pool.enqueueTx 1 tx.hash tx).2.promoteExecutables [1]).2.pending 1 = none ∧
    ((pool.enqueueTx 1 tx.hash tx).2.promoteExecutables [1]).2.queue 1 = none ∧
    ((pool.enqueueTx 1 tx.hash tx).2.promoteExecutables [1]).2.currentState = state :=
  ⟨rfl, by decide, rfl, rfl, rfl, rfl, rfl, rfl, rfl⟩

/-! ## The same transfer in the default token -/

/-- `TokenPool.tx` moving, and paying gas in, the default token. -/
def defaultTokenTx : EvmTransaction := { TokenPool.tx with gasTokenID := 0, transferTokenID := 0 }

open TokenPool in
/-- Account `1` holds none of the default token: `Filter` drops the transfer, and
`ValidateTransaction` rejects it. -/
theorem filter_drops_only_invalid_defaultTokenTx :
    defaultTokenTx ∈
        (((TxList.newTxList true).put defaultTokenTx).filter (state.getBalance 1 0) 30000).1 ∧
      validateTransaction state defaultTokenTx 1 ≠ .ok () := by
  have hdrop : defaultTokenTx ∈
      (((TxList.newTxList true).put defaultTokenTx).filter (state.getBalance 1 0) 30000).1 := by
    decide
  exact ⟨hdrop, filter_drops_only_invalid rfl rfl (by decide) hdrop⟩

end Core
