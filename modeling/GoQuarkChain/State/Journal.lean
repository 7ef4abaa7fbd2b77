import GoQuarkChain.Core.MinorBlockChain

/-!
# The state journal, snapshots and reverts

Every journaled change of a `StateDB` appends an entry that can undo it, and counts
one more change of the account it names in `dirties`. `Snapshot` records the
journal's length; `RevertToSnapshot` undoes the entries after it, last first, drops
their dirty counts and cuts the journal back.

The part of the state that the journal undoes is `World`: the state objects, the
refund counter and the logs. Reverting restores the world and the entries for every
run of operations after a snapshot (`revertToSnapshot_restores`). It does not
always restore `dirties`: undoing a `Suicide` restores the balances through
`SetBalances`, which journals a balance change, counting one more change of the
account, while the journal is being reverted; that entry is cut off with the rest,
its count stays (`revertToSnapshot_suicide_keeps_dirty`). A touch of the RIPEMD
precompile is counted twice by design and undone once.

`stateObjectsDirty`, the tries, the preimages and the deleted flag of an object
play no part in what a revert restores here and are left out; the storage of an
object is its dirty storage over its committed one.
-/

namespace State

namespace Journaled

open Core

structure Log where
  topics : List Nat
  data : List UInt8
  txHash : Nat
  index : Nat

/-- A state object: its balance of each token, nonce, code, storage, and `suicided`. -/
structure StateObject where
  balances : SortedMap Nat Int
  nonce : Nat
  code : List UInt8
  storage : Nat → Nat
  suicided : Bool

/-- `newObject` for an empty `Account`. -/
def StateObject.empty : StateObject := ⟨SortedMap.empty, 0, [], fun _ => 0, false⟩

/-- `stateObject.Balance`: zero for a token without an entry. -/
def StateObject.balance (obj : StateObject) (tokenID : Nat) : Int :=
  (obj.balances.get? tokenID).getD 0

inductive JournalEntry where
  | createObjectChange (account : Recipient)
  | resetObjectChange (account : Recipient) (prev : StateObject)
  | suicideChange (account : Recipient) (prev : Bool) (prevbalance : SortedMap Nat Int)
  | balanceChange (account : Recipient) (prev : SortedMap Nat Int)
  | nonceChange (account : Recipient) (prev : Nat)
  | storageChange (account : Recipient) (key prevalue : Nat)
  | codeChange (account : Recipient) (prevcode : List UInt8)
  | refundChange (prev : Nat)
  | addLogChange (txhash : Nat)
  | touchChange (account : Recipient)

/-- `dirtied`: the account an entry changes, if any. -/
def JournalEntry.dirtied : JournalEntry → Option Recipient
  | .createObjectChange a => some a
  | .resetObjectChange _ _ => none
  | .suicideChange a _ _ => some a
  | .balanceChange a _ => some a
  | .nonceChange a _ => some a
  | .storageChange a _ _ => some a
  | .codeChange a _ => some a
  | .refundChange _ => none
  | .addLogChange _ => none
  | .touchChange a => some a

structure Journal where
  entries : List JournalEntry
  dirties : Recipient → Int

namespace Journal

/-- `journal.append`. -/
def append (j : Journal) (entry : JournalEntry) : Journal :=
  { entries := j.entries ++ [entry]
    dirties := match entry.dirtied with
      | some a => Function.update j.dirties a (j.dirties a + 1)
      | none => j.dirties }

/-- `journal.dirty`, the RIPEMD exception. -/
def dirty (j : Journal) (addr : Recipient) : Journal :=
  { j with dirties := Function.update j.dirties addr (j.dirties addr + 1) }

/-- The dirty count that `journal.revert` drops for a reverted entry. -/
def undirty (j : Journal) (entry : JournalEntry) : Journal :=
  { j with dirties := match entry.dirtied with
      | some a => Function.update j.dirties a (j.dirties a - 1)
      | none => j.dirties }

end Journal

/-- What the journal undoes. -/
structure World where
  stateObjects : Recipient → Option StateObject
  refund : Nat
  thash : Nat
  logs : Nat → List Log
  logSize : Nat

structure StateDB where
  world : World
  journal : Journal
  validRevisions : List (Nat × Nat)
  nextRevisionId : Nat

/-- The RIPEMD precompile, `0x...03`. -/
def ripemd : Recipient := 3

namespace StateDB

variable (s : StateDB)

def getStateObject (addr : Recipient) : Option StateObject := s.world.stateObjects addr

def append (entry : JournalEntry) : StateDB := { s with journal := s.journal.append entry }

def setObject (addr : Recipient) (obj : StateObject) : StateDB :=
  { s with world := { s.world with stateObjects := Function.update s.world.stateObjects addr (some obj) } }

/-- `createObject`: a fresh object, journaled as a creation or as the reset of the
one it replaces. -/
def createObject (addr : Recipient) : StateObject × Option StateObject × StateDB :=
  let prev := s.getStateObject addr
  let s := s.append (match prev with
    | none => .createObjectChange addr
    | some p => .resetObjectChange addr p)
  (StateObject.empty, prev, s.setObject addr StateObject.empty)

def getOrNewStateObject (addr : Recipient) : StateObject × StateDB :=
  match s.getStateObject addr with
  | some obj => (obj, s)
  | none =>
    let r := s.createObject addr
    (r.1, r.2.2)

/-- `CreateAccount`: a fresh object that keeps the balances of the one it replaces. -/
def createAccount (addr : Recipient) : StateDB :=
  let r := s.createObject addr
  match r.2.1 with
  | some prev => r.2.2.setObject addr { r.1 with balances := prev.balances }
  | none => r.2.2

/-- `stateObject.SetBalance`: journal the balance map, then set one token;
`SetValue` panics on a negative amount, after the entry is journaled. -/
def setObjectBalance (addr : Recipient) (obj : StateObject) (amount : Int) (tokenID : Nat) :
    Except Failure StateDB :=
  let s := s.append (.balanceChange addr obj.balances)
  if amount < 0 then .error (.panic "serious bug !!!!!!!!!!!!!")
  else .ok (s.setObject addr { obj with balances := obj.balances.insert tokenID amount })

/-- `stateObject.touch`. -/
def touch (addr : Recipient) : StateDB :=
  let s := s.append (.touchChange addr)
  if addr = ripemd then { s with journal := s.journal.dirty addr } else s

/-- `AddBalance`: adding zero only touches the account. -/
def addBalance (addr : Recipient) (amount : Int) (tokenID : Nat) : Except Failure StateDB :=
  let r := s.getOrNewStateObject addr
  if amount = 0 then .ok (r.2.touch addr)
  else r.2.setObjectBalance addr r.1 (r.1.balance tokenID + amount) tokenID

/-- `SubBalance`: subtracting zero does nothing to the object. -/
def subBalance (addr : Recipient) (amount : Int) (tokenID : Nat) : Except Failure StateDB :=
  let r := s.getOrNewStateObject addr
  if amount = 0 then .ok r.2
  else r.2.setObjectBalance addr r.1 (r.1.balance tokenID - amount) tokenID

def setBalance (addr : Recipient) (amount : Int) (tokenID : Nat) : Except Failure StateDB :=
  let r := s.getOrNewStateObject addr
  r.2.setObjectBalance addr r.1 amount tokenID

def setNonce (addr : Recipient) (nonce : Nat) : StateDB :=
  let r := s.getOrNewStateObject addr
  (r.2.append (.nonceChange addr r.1.nonce)).setObject addr { r.1 with nonce := nonce }

def setCode (addr : Recipient) (code : List UInt8) : StateDB :=
  let r := s.getOrNewStateObject addr
  (r.2.append (.codeChange addr r.1.code)).setObject addr { r.1 with code := code }

/-- `SetState`: writing the value already there journals nothing. -/
def setState (addr : Recipient) (key value : Nat) : StateDB :=
  let r := s.getOrNewStateObject addr
  if r.1.storage key = value then r.2
  else (r.2.append (.storageChange addr key (r.1.storage key))).setObject addr
    { r.1 with storage := Function.update r.1.storage key value }

/-- `Suicide`: mark the object and clear its balances. -/
def suicide (addr : Recipient) : Bool × StateDB :=
  match s.getStateObject addr with
  | none => (false, s)
  | some obj =>
    (true, (s.append (.suicideChange addr obj.suicided obj.balances)).setObject addr
      { obj with suicided := true, balances := SortedMap.empty })

def addRefund (gas : Nat) : StateDB :=
  let s := s.append (.refundChange s.world.refund)
  { s with world := { s.world with refund := s.world.refund + gas } }

/-- `AddLog`, under the current transaction hash, numbered by the log count. -/
def addLog (log : Log) : StateDB :=
  let s := s.append (.addLogChange s.world.thash)
  let log := { log with txHash := s.world.thash, index := s.world.logSize % 2 ^ 32 }
  { s with world := { s.world with
    logs := Function.update s.world.logs s.world.thash (s.world.logs s.world.thash ++ [log])
    logSize := s.world.logSize + 1 } }

/-- `Snapshot`: a new revision id at the journal's length. -/
def snapshot : Nat × StateDB :=
  (s.nextRevisionId,
    { s with nextRevisionId := s.nextRevisionId + 1
             validRevisions := s.validRevisions ++ [(s.nextRevisionId, s.journal.entries.length)] })

/-- Change the object of `addr`; there is none to change only through a nil pointer. -/
def modifyObject (addr : Recipient) (f : StateObject → StateObject) : Except Failure StateDB :=
  match s.getStateObject addr with
  | some obj => .ok (s.setObject addr (f obj))
  | none => .error nilDereference

end StateDB

/-- `revert` of each kind of entry. Undoing a suicide calls `SetBalances`, which
journals a balance change. -/
def JournalEntry.revert : JournalEntry → StateDB → Except Failure StateDB
  | .createObjectChange a, s =>
    .ok { s with world := { s.world with stateObjects := Function.update s.world.stateObjects a none } }
  | .resetObjectChange a prev, s => .ok (s.setObject a prev)
  | .suicideChange a prev prevbalance, s =>
    match s.getStateObject a with
    | some obj =>
      .ok ((s.append (.balanceChange a obj.balances)).setObject a
        { obj with suicided := prev, balances := prevbalance })
    | none => .ok s
  | .balanceChange a prev, s => s.modifyObject a fun obj => { obj with balances := prev }
  | .nonceChange a prev, s => s.modifyObject a fun obj => { obj with nonce := prev }
  | .storageChange a key prevalue, s =>
    s.modifyObject a fun obj => { obj with storage := Function.update obj.storage key prevalue }
  | .codeChange a prevcode, s => s.modifyObject a fun obj => { obj with code := prevcode }
  | .refundChange prev, s => .ok { s with world := { s.world with refund := prev } }
  | .addLogChange txhash, s =>
    match s.world.logs txhash with
    | [] => .error (.panic "runtime error: slice bounds out of range [:-1]")
    | logs => .ok { s with world := { s.world with
        logs := Function.update s.world.logs txhash logs.dropLast
        logSize := s.world.logSize - 1 } }
  | .touchChange _, s => .ok s

/-- The loop of `journal.revert`: each entry after the snapshot, last first, is
undone and its dirty count dropped. The loop reads the journal by index from its
old end down; what an undo appends lies past that end and is never read. -/
def revertEntries : List JournalEntry → StateDB → Except Failure StateDB
  | [], s => .ok s
  | e :: es, s => do
    let s ← e.revert s
    revertEntries es { s with journal := s.journal.undirty e }

namespace StateDB

variable (s : StateDB)

/-- `RevertToSnapshot`: find the revision, undo the journal back to its length, cut the
journal there and drop the revisions from it on. -/
def revertToSnapshot (revid : Nat) : Except Failure StateDB :=
  let idx := s.validRevisions.findIdx fun r => revid ≤ r.1
  match s.validRevisions[idx]? with
  | some (id, snapshot) =>
    if id ≠ revid then .error (.panic s!"revision id {revid} cannot be reverted")
    else do
      let s' ← revertEntries (s.journal.entries.drop snapshot).reverse s
      pure { s' with
        journal := { s'.journal with entries := s'.journal.entries.take snapshot }
        validRevisions := s.validRevisions.take idx }
  | none => .error (.panic s!"revision id {revid} cannot be reverted")

end StateDB

/-- The journaled operations. -/
inductive Op where
  | createAccount (addr : Recipient)
  | addBalance (addr : Recipient) (amount : Int) (tokenID : Nat)
  | subBalance (addr : Recipient) (amount : Int) (tokenID : Nat)
  | setBalance (addr : Recipient) (amount : Int) (tokenID : Nat)
  | setNonce (addr : Recipient) (nonce : Nat)
  | setCode (addr : Recipient) (code : List UInt8)
  | setState (addr : Recipient) (key value : Nat)
  | suicide (addr : Recipient)
  | addRefund (gas : Nat)
  | addLog (log : Log)

def Op.apply : Op → StateDB → Except Failure StateDB
  | .createAccount a, s => .ok (s.createAccount a)
  | .addBalance a amount t, s => s.addBalance a amount t
  | .subBalance a amount t, s => s.subBalance a amount t
  | .setBalance a amount t, s => s.setBalance a amount t
  | .setNonce a n, s => .ok (s.setNonce a n)
  | .setCode a code, s => .ok (s.setCode a code)
  | .setState a key value, s => .ok (s.setState a key value)
  | .suicide a, s => .ok (s.suicide a).2
  | .addRefund gas, s => .ok (s.addRefund gas)
  | .addLog log, s => .ok (s.addLog log)

/-- Operations one after another, stopping at the first panic. -/
def run : List Op → StateDB → Except Failure StateDB
  | [], s => .ok s
  | o :: os, s => do
    let s ← o.apply s
    run os s

/-! ## Undoing a run -/

namespace StateDB

variable {s : StateDB}

@[simp] theorem append_world (e : JournalEntry) : (s.append e).world = s.world := rfl

@[simp] theorem append_entries (e : JournalEntry) :
    (s.append e).journal.entries = s.journal.entries ++ [e] := rfl

@[simp] theorem append_validRevisions (e : JournalEntry) :
    (s.append e).validRevisions = s.validRevisions := rfl

@[simp] theorem setObject_journal (a : Recipient) (obj : StateObject) :
    (s.setObject a obj).journal = s.journal := rfl

@[simp] theorem setObject_validRevisions (a : Recipient) (obj : StateObject) :
    (s.setObject a obj).validRevisions = s.validRevisions := rfl

@[simp] theorem getStateObject_setObject (a : Recipient) (obj : StateObject) :
    (s.setObject a obj).getStateObject a = some obj := by
  simp [getStateObject, setObject]

/-- Writing back the object an account already has changes nothing of the world. -/
theorem setObject_world_of_get {t : StateDB} {a : Recipient} {obj : StateObject}
    (h : s.getStateObject a = some obj) (hw : t.world = { s.world with
      stateObjects := Function.update s.world.stateObjects a (some obj) }) : t.world = s.world := by
  rw [hw, ← h]
  simp [getStateObject, Function.update_eq_self]

end StateDB

/-- `s'` is `s` with the entries `es` journaled after it, and undoing `es`, last first,
from any state with the world of `s'` gives back the world of `s`. -/
structure Undoes (s s' : StateDB) (es : List JournalEntry) : Prop where
  entries : s'.journal.entries = s.journal.entries ++ es
  revisions : s'.validRevisions = s.validRevisions
  revert : ∀ t : StateDB, t.world = s'.world →
    ∃ t', revertEntries es.reverse t = .ok t' ∧ t'.world = s.world

theorem revertEntries_append (l₁ l₂ : List JournalEntry) (t : StateDB) :
    revertEntries (l₁ ++ l₂) t = (revertEntries l₁ t).bind (revertEntries l₂) := by
  induction l₁ generalizing t with
  | nil => rfl
  | cons e es ih =>
    simp only [List.cons_append, revertEntries, bind, Except.bind]
    cases e.revert t with
    | error err => rfl
    | ok t₁ => exact ih _

theorem Undoes.refl (s : StateDB) : Undoes s s [] :=
  ⟨by simp, rfl, fun t ht => ⟨t, rfl, ht⟩⟩

theorem Undoes.trans {s₁ s₂ s₃ : StateDB} {es₁ es₂ : List JournalEntry}
    (h₁ : Undoes s₁ s₂ es₁) (h₂ : Undoes s₂ s₃ es₂) : Undoes s₁ s₃ (es₁ ++ es₂) := by
  refine ⟨by rw [h₂.entries, h₁.entries, List.append_assoc], h₂.revisions.trans h₁.revisions, ?_⟩
  intro t ht
  -- undo `es₂` back to the world of `s₂`, then `es₁` back to that of `s₁`
  obtain ⟨t₂, hrun₂, hw₂⟩ := h₂.revert t ht
  obtain ⟨t₁, hrun₁, hw₁⟩ := h₁.revert t₂ hw₂
  refine ⟨t₁, ?_, hw₁⟩
  rw [List.reverse_append, revertEntries_append, hrun₂]
  exact hrun₁

/-- One entry whose undo gives back the world of `s`. -/
theorem undoes_single {s s' : StateDB} {e : JournalEntry}
    (hentries : s'.journal.entries = s.journal.entries ++ [e])
    (hrevisions : s'.validRevisions = s.validRevisions)
    (hrevert : ∀ t : StateDB, t.world = s'.world → ∃ t', e.revert t = .ok t' ∧ t'.world = s.world) :
    Undoes s s' [e] := by
  refine ⟨hentries, hrevisions, fun t ht => ?_⟩
  obtain ⟨t', hrev, hw⟩ := hrevert t ht
  exact ⟨{ t' with journal := t'.journal.undirty e }, by simp [revertEntries, hrev, bind, Except.bind], hw⟩

/-- An entry that puts back the object it was journaled with undoes a change of that
object. -/
theorem undoes_modify {s : StateDB} {a : Recipient} {obj obj' : StateObject} {e : JournalEntry}
    (hget : s.getStateObject a = some obj)
    (hrevert : ∀ t : StateDB, t.getStateObject a = some obj' → e.revert t = .ok (t.setObject a obj)) :
    Undoes s ((s.append e).setObject a obj') [e] := by
  refine undoes_single (by simp) (by simp) fun t ht => ⟨_, hrevert t ?_, ?_⟩
  · simp [StateDB.getStateObject, ht, StateDB.setObject]
  · apply StateDB.setObject_world_of_get hget
    simp only [StateDB.setObject, ht, StateDB.append_world, Function.update_idem]

/-! ### Each operation is undone by what it journals -/

section Operations

variable {s s' : StateDB} {a : Recipient}

theorem undoes_create (h : s.getStateObject a = none) (obj : StateObject) :
    Undoes s ((s.append (.createObjectChange a)).setObject a obj) [.createObjectChange a] := by
  refine undoes_single (by simp) (by simp) fun t ht => ⟨_, rfl, ?_⟩
  rw [ht]
  simp only [StateDB.setObject, StateDB.append_world, Function.update_idem]
  rw [← h]
  simp [StateDB.getStateObject, Function.update_eq_self]

theorem getOrNewStateObject_undoes (s : StateDB) (a : Recipient) :
    ∃ es, Undoes s (s.getOrNewStateObject a).2 es ∧
      (s.getOrNewStateObject a).2.getStateObject a = some (s.getOrNewStateObject a).1 := by
  unfold StateDB.getOrNewStateObject
  cases h : s.getStateObject a with
  | some obj => exact ⟨[], .refl s, h⟩
  | none =>
    refine ⟨[.createObjectChange a], ?_, by simp [StateDB.createObject]⟩
    simpa [StateDB.createObject, h] using undoes_create h StateObject.empty

theorem setObjectBalance_undoes {obj : StateObject} {amount : Int} {tokenID : Nat}
    (hget : s.getStateObject a = some obj) (h : s.setObjectBalance a obj amount tokenID = .ok s') :
    Undoes s s' [.balanceChange a obj.balances] := by
  unfold StateDB.setObjectBalance at h
  split_ifs at h with hneg
  cases h
  exact undoes_modify hget fun t ht => by simp [JournalEntry.revert, StateDB.modifyObject, ht]

theorem touch_undoes (s : StateDB) (a : Recipient) : Undoes s (s.touch a) [.touchChange a] := by
  refine undoes_single ?_ ?_ fun t ht => ⟨t, rfl, ?_⟩
  · unfold StateDB.touch
    split_ifs <;> rfl
  · unfold StateDB.touch
    split_ifs <;> rfl
  · rw [ht]
    unfold StateDB.touch
    split_ifs <;> rfl

theorem suicide_undoes (s : StateDB) (a : Recipient) :
    ∃ es, Undoes s (s.suicide a).2 es := by
  unfold StateDB.suicide
  cases h : s.getStateObject a with
  | none => exact ⟨[], .refl s⟩
  | some obj =>
    refine ⟨[.suicideChange a obj.suicided obj.balances], undoes_single (by simp) (by simp) fun t ht => ?_⟩
    have hget : t.getStateObject a = some { obj with suicided := true, balances := SortedMap.empty } := by
      simp [StateDB.getStateObject, ht, StateDB.setObject]
    refine ⟨(t.append (.balanceChange a SortedMap.empty)).setObject a obj, ?_, ?_⟩
    · simp only [JournalEntry.revert, hget]
    apply StateDB.setObject_world_of_get h
    simp only [StateDB.setObject, StateDB.append_world, ht, Function.update_idem]

theorem createAccount_undoes (s : StateDB) (a : Recipient) :
    ∃ es, Undoes s (s.createAccount a) es := by
  unfold StateDB.createAccount StateDB.createObject
  cases h : s.getStateObject a with
  | none => exact ⟨_, by simpa using undoes_create h StateObject.empty⟩
  | some prev =>
    refine ⟨[.resetObjectChange a prev], ?_⟩
    have hset : ∀ (t : StateDB) (o o' : StateObject), (t.setObject a o).setObject a o' = t.setObject a o' := by
      intro t o o'
      simp [StateDB.setObject, Function.update_idem]
    have hu := @undoes_modify s a prev { StateObject.empty with balances := prev.balances }
      (.resetObjectChange a prev) h fun t _ => rfl
    simpa [hset] using hu

theorem setNonce_undoes (s : StateDB) (a : Recipient) (nonce : Nat) :
    ∃ es, Undoes s (s.setNonce a nonce) es := by
  obtain ⟨es, hu, hget⟩ := getOrNewStateObject_undoes s a
  exact ⟨_, hu.trans (undoes_modify hget fun t ht => by
    simp [JournalEntry.revert, StateDB.modifyObject, ht])⟩

theorem setCode_undoes (s : StateDB) (a : Recipient) (code : List UInt8) :
    ∃ es, Undoes s (s.setCode a code) es := by
  obtain ⟨es, hu, hget⟩ := getOrNewStateObject_undoes s a
  exact ⟨_, hu.trans (undoes_modify hget fun t ht => by
    simp [JournalEntry.revert, StateDB.modifyObject, ht])⟩

theorem setState_undoes (s : StateDB) (a : Recipient) (key value : Nat) :
    ∃ es, Undoes s (s.setState a key value) es := by
  obtain ⟨es, hu, hget⟩ := getOrNewStateObject_undoes s a
  unfold StateDB.setState
  dsimp only
  split_ifs with hsame
  · exact ⟨es, hu⟩
  · exact ⟨_, hu.trans (undoes_modify hget fun t ht => by
      simp [JournalEntry.revert, StateDB.modifyObject, ht, Function.update_idem,
        Function.update_eq_self])⟩

theorem addRefund_undoes (s : StateDB) (gas : Nat) :
    Undoes s (s.addRefund gas) [.refundChange s.world.refund] :=
  undoes_single (by simp [StateDB.addRefund]) rfl fun t ht => ⟨_, rfl, by rw [ht]; rfl⟩

theorem addLog_undoes (s : StateDB) (log : Log) :
    Undoes s (s.addLog log) [.addLogChange s.world.thash] := by
  refine undoes_single (by simp [StateDB.addLog]) rfl fun t ht => ?_
  -- the log list of the transaction ends with the new log, so it is not empty
  obtain ⟨x, xs, hcons⟩ := List.exists_cons_of_ne_nil
    (List.append_ne_nil_of_right_ne_nil (s.world.logs s.world.thash)
      (List.cons_ne_nil { log with txHash := s.world.thash, index := s.world.logSize % 2 ^ 32 } []))
  have hlogs : t.world.logs s.world.thash = x :: xs := by
    rw [ht]
    simpa [StateDB.addLog] using hcons
  refine ⟨{ t with world := { t.world with
      logs := Function.update t.world.logs s.world.thash (x :: xs).dropLast
      logSize := t.world.logSize - 1 } }, by simp only [JournalEntry.revert, hlogs], ?_⟩
  rw [← hlogs, ht]
  simp [StateDB.addLog, Function.update_idem, Function.update_eq_self]

end Operations

theorem Op.apply_undoes {o : Op} {s s' : StateDB} (h : o.apply s = .ok s') :
    ∃ es, Undoes s s' es := by
  cases o with
  | createAccount a =>
    cases h
    exact createAccount_undoes s a
  | addBalance a amount tokenID =>
    obtain ⟨es, hu, hget⟩ := getOrNewStateObject_undoes s a
    simp only [Op.apply, StateDB.addBalance] at h
    split_ifs at h
    · cases h
      exact ⟨_, hu.trans (touch_undoes _ a)⟩
    · exact ⟨_, hu.trans (setObjectBalance_undoes hget h)⟩
  | subBalance a amount tokenID =>
    obtain ⟨es, hu, hget⟩ := getOrNewStateObject_undoes s a
    simp only [Op.apply, StateDB.subBalance] at h
    split_ifs at h
    · cases h
      exact ⟨_, hu⟩
    · exact ⟨_, hu.trans (setObjectBalance_undoes hget h)⟩
  | setBalance a amount tokenID =>
    obtain ⟨es, hu, hget⟩ := getOrNewStateObject_undoes s a
    exact ⟨_, hu.trans (setObjectBalance_undoes hget h)⟩
  | setNonce a nonce =>
    cases h
    exact setNonce_undoes s a nonce
  | setCode a code =>
    cases h
    exact setCode_undoes s a code
  | setState a key value =>
    cases h
    exact setState_undoes s a key value
  | suicide a =>
    cases h
    exact suicide_undoes s a
  | addRefund gas =>
    cases h
    exact ⟨_, addRefund_undoes s gas⟩
  | addLog log =>
    cases h
    exact ⟨_, addLog_undoes s log⟩

/-- A run of operations is undone by what it journals. -/
theorem run_undoes (ops : List Op) {s s' : StateDB} (h : run ops s = .ok s') :
    ∃ es, Undoes s s' es := by
  induction ops generalizing s with
  | nil =>
    cases h
    exact ⟨[], .refl _⟩
  | cons o os ih =>
    simp only [run, bind, Except.bind] at h
    split at h
    · cases h
    · rename_i s₁ h₁
      obtain ⟨es₁, hu₁⟩ := Op.apply_undoes h₁
      obtain ⟨es₂, hu₂⟩ := ih h
      exact ⟨_, hu₁.trans hu₂⟩

/-! ### Snapshot and revert -/

/-- Undoing an entry journals at most what `SetBalances` appends. -/
theorem JournalEntry.revert_entries {e : JournalEntry} {t t₁ : StateDB} (h : e.revert t = .ok t₁) :
    ∃ extra, t₁.journal.entries = t.journal.entries ++ extra := by
  cases e <;> simp only [JournalEntry.revert, StateDB.modifyObject] at h
  case suicideChange a prev prevbalance =>
    split at h
    · rename_i obj _
      cases h
      exact ⟨[.balanceChange a obj.balances], by simp⟩
    · cases h
      exact ⟨[], by simp⟩
  case addLogChange txhash =>
    split at h
    · cases h
    · cases h
      exact ⟨[], by simp⟩
  all_goals
    first
    | (cases h; exact ⟨[], by simp⟩)
    | (split at h
       · cases h
         exact ⟨[], by simp⟩
       · cases h)

theorem revertEntries_entries {es : List JournalEntry} {t t' : StateDB}
    (h : revertEntries es t = .ok t') : ∃ extra, t'.journal.entries = t.journal.entries ++ extra := by
  induction es generalizing t with
  | nil =>
    cases h
    exact ⟨[], by simp⟩
  | cons e es ih =>
    simp only [revertEntries, bind, Except.bind] at h
    split at h
    · cases h
    · rename_i t₁ h₁
      obtain ⟨extra₁, h₁⟩ := JournalEntry.revert_entries h₁
      obtain ⟨extra₂, h₂⟩ := ih h
      exact ⟨extra₁ ++ extra₂, by simp [h₂, Journal.undirty, h₁]⟩

/-- `RevertToSnapshot` finds the newest revision when every older one has a smaller id. -/
theorem findIdx_snapshot (s₀ : StateDB) (hrev : ∀ r ∈ s₀.validRevisions, r.1 < s₀.nextRevisionId) :
    (s₀.validRevisions ++ [(s₀.nextRevisionId, s₀.journal.entries.length)]).findIdx
      (fun r => decide (s₀.nextRevisionId ≤ r.1)) = s₀.validRevisions.length := by
  have hnone : s₀.validRevisions.findIdx (fun r => decide (s₀.nextRevisionId ≤ r.1)) =
      s₀.validRevisions.length := by
    rw [List.findIdx_eq_length]
    intro r hr
    simpa using hrev r hr
  rw [List.findIdx_append, hnone, if_neg (Nat.lt_irrefl _)]
  simp

/-- After `id := Snapshot()` and any run of operations, `RevertToSnapshot(id)` returns,
with the world, the journal's entries and the revisions as they were at the snapshot. -/
theorem revertToSnapshot_restores (s₀ : StateDB)
    (hrev : ∀ r ∈ s₀.validRevisions, r.1 < s₀.nextRevisionId) (ops : List Op) {s₂ : StateDB}
    (hrun : run ops s₀.snapshot.2 = .ok s₂) :
    ∃ s₃, s₂.revertToSnapshot s₀.snapshot.1 = .ok s₃ ∧ s₃.world = s₀.world ∧
      s₃.journal.entries = s₀.journal.entries ∧ s₃.validRevisions = s₀.validRevisions := by
  obtain ⟨es, hu⟩ := run_undoes ops hrun
  have hvr : s₂.validRevisions = s₀.validRevisions ++ [(s₀.nextRevisionId, s₀.journal.entries.length)] :=
    hu.revisions
  have hent : s₂.journal.entries = s₀.journal.entries ++ es := hu.entries
  obtain ⟨t', hrevert, hworld⟩ := hu.revert s₂ rfl
  obtain ⟨extra, hextra⟩ := revertEntries_entries hrevert
  have hdrop : (s₂.journal.entries.drop s₀.journal.entries.length).reverse = es.reverse := by
    rw [hent, List.drop_left]
  refine ⟨{ t' with
      journal := { t'.journal with entries := t'.journal.entries.take s₀.journal.entries.length }
      validRevisions := s₀.validRevisions }, ?_, hworld, ?_, rfl⟩
  · unfold StateDB.revertToSnapshot
    rw [show s₀.snapshot.1 = s₀.nextRevisionId from rfl, hvr, findIdx_snapshot s₀ hrev]
    dsimp only
    rw [List.getElem?_concat_length]
    simp only [ne_eq, not_true_eq_false, if_false]
    rw [hdrop, hrevert, List.take_left' rfl]
    rfl
  · simp [hextra, hent]

/-- A state with one account, `1`, and a clean journal. -/
def accountOne : StateDB where
  world := { stateObjects := fun a => if a = 1 then some StateObject.empty else none
             refund := 0, thash := 0, logs := fun _ => [], logSize := 0 }
  journal := { entries := [], dirties := fun _ => 0 }
  validRevisions := []
  nextRevisionId := 0

/-- `accountOne` after a snapshot and two changes to account `1`: a state with an earlier
revision and two journal entries. -/
def changedAccountOne : StateDB :=
  (run [.addBalance 1 5 0, .setNonce 1 3] accountOne.snapshot.2).toOption.getD accountOne

/-- Over `changedAccountOne`, a second snapshot, then a new nonce, a storage write, a new
account and the suicide of account `1`, reverted: the world, the journal's entries and
the revisions, the earlier one included, are those of the second snapshot. -/
theorem revertToSnapshot_restores_after_suicide :
    run [.addBalance 1 5 0, .setNonce 1 3] accountOne.snapshot.2 = .ok changedAccountOne ∧
      changedAccountOne.validRevisions = [(0, 0)] ∧
      changedAccountOne.journal.entries.length = 2 ∧
      (∀ r ∈ changedAccountOne.validRevisions, r.1 < changedAccountOne.nextRevisionId) ∧
      ∃ s₂, run [.setNonce 1 4, .setState 1 2 9, .createAccount 2, .suicide 1]
          changedAccountOne.snapshot.2 = .ok s₂ ∧
        ∃ s₃, s₂.revertToSnapshot changedAccountOne.snapshot.1 = .ok s₃ ∧
          s₃.world = changedAccountOne.world ∧
          s₃.journal.entries = changedAccountOne.journal.entries ∧
          s₃.validRevisions = changedAccountOne.validRevisions := by
  have hrev : ∀ r ∈ changedAccountOne.validRevisions, r.1 < changedAccountOne.nextRevisionId := by
    decide
  exact ⟨rfl, rfl, rfl, hrev, _, rfl, revertToSnapshot_restores changedAccountOne hrev
    [.setNonce 1 4, .setState 1 2 9, .createAccount 2, .suicide 1] rfl⟩

/-- The suicide of account `1` after a snapshot, reverted: the journal's entries are
back, but the balance change journaled by the undo of the suicide leaves account `1`
counted once more in `dirties` than at the snapshot. -/
theorem revertToSnapshot_suicide_keeps_dirty :
    ∃ s₂ s₃, run [.suicide 1] accountOne.snapshot.2 = .ok s₂ ∧
      s₂.revertToSnapshot accountOne.snapshot.1 = .ok s₃ ∧
      s₃.journal.entries = accountOne.journal.entries ∧
      s₃.journal.dirties 1 = accountOne.journal.dirties 1 + 1 :=
  ⟨_, _, rfl, rfl, rfl, rfl⟩

end Journaled

end State
