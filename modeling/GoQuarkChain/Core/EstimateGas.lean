import GoQuarkChain.Lib.Bisect
import GoQuarkChain.Core.TxPool
import GoQuarkChain.Core.CursorRefinement

/-!
# Estimating the gas of a transaction

`EstimateGas` bisects the gas in `uint32` between `21000 - 1` and a cap: the
transaction's own gas when it is above `21000`, else the block's gas limit. The
closure `runTx` validates the transaction with the gas overridden and applies its
message on a copy of the state; a pass moves `hi` down, a failure moves `lo` up.
After the loop, a search that ended at the cap runs the transaction once more
there, and returns `0` when it passes.

While `lo + hi` stays below `2 ^ 32` the loop is `Bisect.search` of the numbers
(`searchGas_of_search`). So for a cap up to `2 ^ 31` and a test monotone in the gas,
the estimate is the least gas that passes when that is below the cap
(`estimateGas_least`); when nothing below the cap passes it is `0` if the cap passes
and the cap itself, with no error, if it fails (`estimateGas_none_below_cap`). A
transaction may carry up to `2 ^ 32 - 1` gas: then `lo + hi` wraps, `lo` keeps
falling back below `2 ^ 31` and a test that always fails keeps the loop running
(`estimateGas_of_never_pass`). A transfer its sender cannot pay always fails
(`estimateGas_unpayable_never_returns`).
-/

namespace Core

open State

def maxUint32 : Nat := 2 ^ 32 - 1

def maxInt32 : Nat := 2 ^ 31 - 1

/-- The loop of `EstimateGas`, in `uint32`: `lo + hi` wraps. `fuel` bounds the steps,
which the source does not. -/
def searchGas (runTx : UInt32 → Bool) : Nat → UInt32 → UInt32 → Except Failure UInt32
  | 0, _, _ => .error .outOfFuel
  | fuel + 1, lo, hi =>
    if lo + 1 < hi then
      let mid := (lo + hi) / 2
      if runTx mid then searchGas runTx fuel lo mid else searchGas runTx fuel mid hi
    else .ok hi

/-- The upper end of the search: the transaction's gas above `21000`, else the
block's gas limit. -/
def gasCap (evmTxStartGas : UInt32) (gasLimit : Nat) : UInt32 :=
  if evmTxStartGas > 21000 then evmTxStartGas else UInt32.ofNat gasLimit

/-- `EstimateGas`, from what the lookup of the current state returned (the state, or
the error or panic that ends the call first) and the closure `runTx` on that state,
`true` when it returns no error. -/
def estimateGas (runTx : StateDB → UInt32 → Bool) (currentState : Except Failure StateDB)
    (txGas fuel : Nat) : Except Failure UInt32 := do
  if txGas > maxUint32 then throw (.error "gas > maxInt31")
  let evmTxStartGas := UInt32.ofNat txGas
  let lo : UInt32 := 21000 - 1
  let currentState ← currentState
  if currentState.gasLimit > maxInt32 then throw (.error "gasLimit > MaxInt32")
  let hi := gasCap evmTxStartGas currentState.gasLimit
  let cap := hi
  let hi ← searchGas (runTx currentState) fuel lo hi
  if hi = cap ∧ runTx currentState hi then return 0
  return hi

/-- The closure `runTx` of `EstimateGas`: on a copy of the state with no gas used
(for a transaction into this shard, with the sender's balances set to its value
and its fee), `validateTx` with the gas overridden, then `ApplyMessage` of the
message built from what it returns. Go's `validateTx` writes the gas into the
transaction itself, so the fee a later call sets is the previous gas tried; the
model's fee is the gas of the transaction it is given. -/
def estimateRunTx (vm : Interpreter) (m : MinorBlockChain) (coinbase : Recipient)
    (xShardGasLimit : Nat) (tx : EvmTransaction) (fromAddress : Address)
    (currentState : StateDB) (gas : UInt32) : Bool :=
  let evmState :=
    if tx.isCrossShard && tx.toFullShardId == m.branch.value then
      (currentState.setBalance fromAddress.recipient tx.amount tx.transferTokenID).setBalance
        fromAddress.recipient (tx.gasLimit * tx.price : Nat) tx.gasTokenID
    else currentState
  let evmState := { evmState with gasUsed := 0 }
  match validateTx m (fun _ => none) tx evmState (some fromAddress) (some gas.toNat)
      xShardGasLimit with
  | .error _ => false
  | .ok evmTx =>
    let msg : Message :=
      { fromAddr := fromAddress.recipient, toAddr := evmTx.recipient, nonce := evmTx.accountNonce,
        amount := evmTx.amount, gasLimit := evmTx.gasLimit, gasPrice := evmTx.price,
        data := evmTx.payload, checkNonce := false, isCrossShard := false,
        fromFullShardKey := tx.fromFullShardKey, toFullShardKey := tx.toFullShardKey, txHash := 0,
        transferTokenID := tx.transferTokenID, gasTokenID := tx.gasTokenID }
    let evmState := evmState.setFullShardKey tx.toFullShardKey
    (applyMessage vm (evmForMessage msg coinbase) msg evmState.gasLimit evmState).1.isOk

/-! ## The loop without wrapping -/

/-- The test `runTx` as a test of numbers. -/
def gasTest (runTx : UInt32 → Bool) (n : Nat) : Bool := runTx (UInt32.ofNat n)

section Search

variable {runTx : UInt32 → Bool}

theorem toNat_mid {lo hi : UInt32} (h : lo.toNat + hi.toNat < 2 ^ 32) :
    ((lo + hi) / 2).toNat = (lo.toNat + hi.toNat) / 2 := by
  rw [UInt32.toNat_div, UInt32.toNat_add, Nat.mod_eq_of_lt h]
  rfl

theorem add_one_lt_iff {lo hi : UInt32} (h : lo.toNat < 2 ^ 31) :
    lo + 1 < hi ↔ lo.toNat + 1 < hi.toNat := by
  rw [UInt32.lt_iff_toNat_lt, UInt32.toNat_add, UInt32.toNat_one, Nat.mod_eq_of_lt (by omega)]

/-- Below `2 ^ 31` the `uint32` loop runs `Bisect.search` on the numbers. -/
theorem searchGas_of_search {fuel : Nat} {lo hi : UInt32} {r : Nat} (hlo : lo.toNat < 2 ^ 31)
    (hhi : hi.toNat ≤ 2 ^ 31) (h : Bisect.search (gasTest runTx) fuel lo.toNat hi.toNat = some r) :
    searchGas runTx fuel lo hi = .ok (UInt32.ofNat r) := by
  induction fuel generalizing lo hi with
  | zero => cases h
  | succ fuel ih =>
    rw [searchGas]
    by_cases hrange : lo + 1 < hi
    · -- the midpoint of the numbers is the `uint32` midpoint: nothing wraps
      have hrange' := (add_one_lt_iff hlo).mp hrange
      have hmid : ((lo + hi) / 2).toNat = (lo.toNat + hi.toNat) / 2 := toNat_mid (by omega)
      have htest : gasTest runTx ((lo.toNat + hi.toNat) / 2) = runTx ((lo + hi) / 2) := by
        rw [gasTest, ← hmid, UInt32.ofNat_toNat]
      rw [if_pos hrange]
      dsimp only
      cases hpass : runTx ((lo + hi) / 2) with
      | true =>
        rw [Bisect.search_succ_pass hrange' (htest.trans hpass), ← hmid] at h
        rw [if_pos rfl]
        exact ih hlo (by omega) h
      | false =>
        rw [Bisect.search_succ_fail hrange' (htest.trans hpass), ← hmid] at h
        rw [if_neg Bool.false_ne_true]
        exact ih (by omega) hhi h
    · rw [if_neg hrange]
      rw [Bisect.search_succ_of_le (by rw [add_one_lt_iff hlo] at hrange; omega)] at h
      cases h
      rw [UInt32.ofNat_toNat]

/-- A test that never passes keeps the loop running from every `lo` below `2 ^ 31`
up to the largest `hi`: `lo + hi` wraps, and the new `lo` is again below `2 ^ 31`. -/
theorem searchGas_of_never_pass (hfail : ∀ g, runTx g = false) (fuel : Nat) {lo : UInt32}
    (hlo : lo.toNat < 2 ^ 31) : searchGas runTx fuel lo (UInt32.ofNat maxUint32) = .error .outOfFuel := by
  induction fuel generalizing lo with
  | zero => rfl
  | succ fuel ih =>
    have hmax : (UInt32.ofNat maxUint32).toNat = 2 ^ 32 - 1 := rfl
    have hrange : lo + 1 < UInt32.ofNat maxUint32 := by
      rw [add_one_lt_iff hlo, hmax]
      omega
    have hmid : ((lo + UInt32.ofNat maxUint32) / 2).toNat < 2 ^ 31 := by
      rw [UInt32.toNat_div, UInt32.toNat_add, hmax]
      change (lo.toNat + (2 ^ 32 - 1)) % 2 ^ 32 / 2 < 2 ^ 31
      omega
    rw [searchGas, if_pos hrange]
    dsimp only
    rw [hfail, if_neg Bool.false_ne_true]
    exact ih hmid

end Search

/-! ## The estimate -/

section Estimate

variable {runTx : StateDB → UInt32 → Bool} {s : StateDB} {txGas fuel : Nat}

/-- Below `2 ^ 31` gas the cap is below `2 ^ 31` too. -/
theorem toNat_gasCap_le (htx : txGas ≤ 2 ^ 31) (hlim : s.gasLimit ≤ maxInt32) :
    (gasCap (UInt32.ofNat txGas) s.gasLimit).toNat ≤ 2 ^ 31 := by
  unfold gasCap maxInt32 at *
  split_ifs
  · rw [UInt32.toNat_ofNat']
    omega
  · rw [UInt32.toNat_ofNat']
    omega

/-- What `EstimateGas` returns once the loop has returned `hi`. -/
theorem estimateGas_eq {hi : UInt32} (htx : txGas ≤ maxUint32) (hlim : s.gasLimit ≤ maxInt32)
    (hsearch : searchGas (runTx s) fuel (21000 - 1) (gasCap (UInt32.ofNat txGas) s.gasLimit) = .ok hi) :
    estimateGas runTx (.ok s) txGas fuel =
      .ok (if hi = gasCap (UInt32.ofNat txGas) s.gasLimit ∧ runTx s hi then 0 else hi) := by
  rw [estimateGas, if_neg (by omega)]
  dsimp only
  rw [Except.ok_bind, if_neg (by omega), hsearch, Except.ok_bind]
  split_ifs <;> rfl

/-- The search from `21000 - 1` to a cap below `2 ^ 31` needs at most 32 steps. -/
theorem search_gasCap_eq (htx : txGas ≤ 2 ^ 31) (hlim : s.gasLimit ≤ maxInt32) (hfuel : 32 ≤ fuel)
    {r : Nat}
    (hsearch : ∀ k, (gasCap (UInt32.ofNat txGas) s.gasLimit).toNat - 20999 ≤ 2 ^ k → k < fuel →
      Bisect.search (gasTest (runTx s)) fuel 20999 (gasCap (UInt32.ofNat txGas) s.gasLimit).toNat =
        some r) :
    searchGas (runTx s) fuel (21000 - 1) (gasCap (UInt32.ofNat txGas) s.gasLimit) =
      .ok (UInt32.ofNat r) := by
  have hcap := toNat_gasCap_le htx hlim
  exact searchGas_of_search (by decide) hcap (hsearch 31 (by omega) (by omega))

/-- For a test monotone in the gas, the estimate is the least gas that passes, when
that is below the cap. -/
theorem estimateGas_least {g : Nat} (htx : txGas ≤ 2 ^ 31) (hlim : s.gasLimit ≤ maxInt32)
    (hfuel : 32 ≤ fuel)
    (hmono : MonotoneOn (gasTest (runTx s)) (Set.Ioo 20999 (gasCap (UInt32.ofNat txGas) s.gasLimit).toNat))
    (hlo : 20999 < g)
    (hg : g < (gasCap (UInt32.ofNat txGas) s.gasLimit).toNat) (hpass : runTx s (UInt32.ofNat g) = true)
    (hleast : ∀ n, 20999 < n → n < g → runTx s (UInt32.ofNat n) = false) :
    estimateGas runTx (.ok s) txGas fuel = .ok (UInt32.ofNat g) := by
  have hfirst : Bisect.firstPass (gasTest (runTx s)) 20999
      (gasCap (UInt32.ofNat txGas) s.gasLimit).toNat = g :=
    Bisect.firstPass_eq_of_least hlo hg hpass hleast
  have hsearch := search_gasCap_eq htx hlim hfuel
    (fun _ hlen hk => hfirst ▸ Bisect.search_eq_firstPass hmono hlen hk)
  rw [estimateGas_eq (by unfold maxUint32; omega) hlim hsearch]
  -- the least gas is below the cap, so the check at the cap is not made
  have hne : UInt32.ofNat g ≠ gasCap (UInt32.ofNat txGas) s.gasLimit := by
    intro heq
    have := congrArg UInt32.toNat heq
    rw [UInt32.toNat_ofNat', Nat.mod_eq_of_lt (by have := toNat_gasCap_le htx hlim; omega)] at this
    omega
  rw [if_neg (fun h => hne h.1)]

/-- A transaction of `30000` gas that needs `23176`: the estimate is `23176`. -/
theorem estimateGas_least_threshold :
    estimateGas (fun _ g => decide (23176 ≤ g.toNat)) (.ok sampleState) 30000 32 =
      .ok (UInt32.ofNat 23176) := by
  have hcap : (gasCap (UInt32.ofNat 30000) sampleState.gasLimit).toNat = 30000 := by decide
  refine estimateGas_least (by decide) (by decide) le_rfl ?_ (by decide) (by rw [hcap]; decide)
    (by decide) ?_
  · intro a ha b hb hab
    rw [hcap, Set.mem_Ioo] at ha hb
    simp only [gasTest, UInt32.toNat_ofNat', Nat.mod_eq_of_lt (show a < 2 ^ 32 by omega),
      Nat.mod_eq_of_lt (show b < 2 ^ 32 by omega), Bool.le_iff_imp, decide_eq_true_eq]
    omega
  · intro n _ hn
    rw [UInt32.toNat_ofNat', Nat.mod_eq_of_lt (by omega)]
    exact decide_eq_false (by omega)

/-- When no gas below the cap passes, the estimate is `0` if the cap passes, and the
cap itself, with no error, if it fails. -/
theorem estimateGas_none_below_cap (htx : txGas ≤ 2 ^ 31) (hlim : s.gasLimit ≤ maxInt32)
    (hfuel : 32 ≤ fuel)
    (hfail : ∀ n, 20999 < n → n < (gasCap (UInt32.ofNat txGas) s.gasLimit).toNat →
      runTx s (UInt32.ofNat n) = false) :
    estimateGas runTx (.ok s) txGas fuel =
      .ok (if runTx s (gasCap (UInt32.ofNat txGas) s.gasLimit) then 0
        else gasCap (UInt32.ofNat txGas) s.gasLimit) := by
  have hsearch := search_gasCap_eq htx hlim hfuel (fun _ hlen hk => Bisect.search_eq_hi hfail hlen hk)
  rw [UInt32.ofNat_toNat] at hsearch
  rw [estimateGas_eq (by unfold maxUint32; omega) hlim hsearch]
  by_cases hcap : runTx s (gasCap (UInt32.ofNat txGas) s.gasLimit) = true
  · rw [if_pos ⟨rfl, hcap⟩, if_pos hcap]
  · rw [if_neg (fun h => hcap h.2), if_neg hcap]

/-- A transaction of `30000` gas that fails at every gas is estimated at `30000`, with
no error. -/
theorem estimateGas_none_below_cap_never_pass :
    estimateGas (fun _ _ => false) (.ok sampleState) 30000 32 = .ok 30000 :=
  (estimateGas_none_below_cap (by decide) (by decide) le_rfl (fun _ _ _ => rfl)).trans rfl

/-- A transaction with `2 ^ 32 - 1` gas that fails at every gas keeps `EstimateGas`
running: no amount of fuel ends it. -/
theorem estimateGas_of_never_pass (hlim : s.gasLimit ≤ maxInt32) (hfail : ∀ g, runTx s g = false)
    (fuel : Nat) : estimateGas runTx (.ok s) maxUint32 fuel = .error .outOfFuel := by
  have hcap : gasCap (UInt32.ofNat maxUint32) s.gasLimit = UInt32.ofNat maxUint32 := by
    rw [gasCap, if_pos (by decide)]
  rw [estimateGas, if_neg (by omega)]
  dsimp only
  rw [Except.ok_bind, if_neg (by omega), hcap, searchGas_of_never_pass hfail fuel (by decide)]
  rfl

end Estimate

/-! ## A transfer its sender cannot pay -/

section Unpayable

variable {m : MinorBlockChain} {tx : EvmTransaction} {a : Address} {xs : Nat}

/-- With the sender given, `validateTx` returns only a transaction that
`ValidateTransaction` accepted, with the value and token of the one it was given.
The transaction carries the sender's own nonce, so the early return for a nonce
ahead of it is never taken. -/
theorem validateTx_some_ok {sender : EvmTransaction → Option Recipient} {evmState : StateDB}
    {gas : Option Nat} {evmTx : EvmTransaction}
    (h : validateTx m sender tx evmState (some a) gas xs = .ok evmTx) :
    validateTransaction { evmState with quarkChainConfig := m.quarkChainConfig } evmTx a.recipient =
      .ok () ∧ evmTx.amount = tx.amount ∧ evmTx.transferTokenID = tx.transferTokenID := by
  unfold validateTx at h
  simp only [Except.throw_eq_error, Except.error_bind, Except.pure_eq_ok,
    Option.map_some, Option.orElse_some, lt_irrefl, false_and, if_false] at h
  -- the two shard sizes
  split at h <;> try contradiction
  obtain ⟨toSize, -, h⟩ := Except.bind_eq_ok.mp h
  split at h <;> try contradiction
  obtain ⟨fromSize, -, h⟩ := Except.bind_eq_ok.mp h
  -- the network, branch, initialized, neighbour, cross-shard gas and EVM checks
  replace h := Except.eq_ok_of_ite_error h
  replace h := Except.eq_ok_of_ite_error h
  replace h := Except.eq_ok_of_ite_ite_error h
  replace h := Except.eq_ok_of_ite_error h
  replace h := Except.eq_ok_of_ite_error h
  replace h := Except.eq_ok_of_ite_ite_error h
  obtain ⟨_, hvalid, h⟩ := Except.bind_eq_ok.mp h
  obtain rfl := Except.ok.inj h
  exact ⟨hvalid, rfl, rfl⟩

/-- A value above the sender's balance fails `validateTx`, whatever the gas. -/
theorem validateTx_some_ne_ok_of_lt {sender : EvmTransaction → Option Recipient}
    {evmState : StateDB} {gas : Option Nat}
    (hlow : evmState.getBalance a.recipient tx.transferTokenID < tx.amount) (evmTx : EvmTransaction) :
    validateTx m sender tx evmState (some a) gas xs ≠ .ok evmTx := by
  intro h
  obtain ⟨hvalid, hamount, htoken⟩ := validateTx_some_ok h
  have hmoney := validateTransaction_ok_money hvalid
  rw [hamount, htoken] at hmoney
  -- either branch of the money check bounds the value by the balance
  have hle : (tx.amount : Int) ≤ evmState.getBalance a.recipient tx.transferTokenID := by
    split_ifs at hmoney
    · exact le_trans (by omega) hmoney
    · exact hmoney.1
  omega

variable {vm : Interpreter} {coinbase : Recipient} {s : StateDB}

/-- For a transaction not into this shard from elsewhere, `runTx` fails at every gas
when the value is above the sender's balance: the state keeps the balance. -/
theorem estimateRunTx_eq_false_of_lt
    (hlocal : (tx.isCrossShard && tx.toFullShardId == m.branch.value) = false)
    (hlow : s.getBalance a.recipient tx.transferTokenID < tx.amount) (gas : UInt32) :
    estimateRunTx vm m coinbase xs tx a s gas = false := by
  unfold estimateRunTx
  rw [if_neg (by rw [hlocal]; exact Bool.false_ne_true)]
  dsimp only
  split
  · rfl
  · -- the copy with no gas used has the same balances
    rename_i evmTx h
    exact absurd h (validateTx_some_ne_ok_of_lt (by exact hlow) evmTx)

/-- `EstimateGas` of such a transfer with the largest gas it accepts never returns. -/
theorem estimateGas_unpayable_never_returns (hgas : tx.gasLimit = maxUint32)
    (hlim : s.gasLimit ≤ maxInt32)
    (hlocal : (tx.isCrossShard && tx.toFullShardId == m.branch.value) = false)
    (hlow : s.getBalance a.recipient tx.transferTokenID < tx.amount) (fuel : Nat) :
    estimateGas (estimateRunTx vm m coinbase xs tx a) (.ok s) tx.gasLimit fuel =
      .error .outOfFuel := by
  rw [hgas]
  exact estimateGas_of_never_pass hlim (estimateRunTx_eq_false_of_lt hlocal hlow) fuel

/-- A transfer of two units from account `1`, which holds one, with the largest gas. -/
def unpayableTx : EvmTransaction := { underfundedTx with amount := 2, gasLimit := maxUint32 }

theorem estimateGas_unpayable_never_returns_receivingShard :
    estimateGas (estimateRunTx transferInterpreter receivingShard 0 0 unpayableTx ⟨1, 0⟩)
      (.ok sampleState) unpayableTx.gasLimit 64 = .error .outOfFuel :=
  estimateGas_unpayable_never_returns rfl (by decide) (by decide) (by decide) 64

end Unpayable

end Core
