import GoQuarkChain.Lib.BigEndian
import GoQuarkChain.Core.TxIndex

/-!
# Transaction-history keys and the key space they are read from

The bytes of the history keys that `Core.TxIndex` models by their fields: the prefix
"iaddr" and a recipient's 20 bytes, or the prefix "iall", then the height as a
`uint32`, a byte 0 for a deposit and 1 for an in-shard transaction, and the index as
a `uint32`. `decodeTxKey` reads the fields back (`decodeTxKey_suffix`).

The database is its list of keys in the comparator's order. An iterator placed by
`SeekForPrev(start)` and moved by `Prev` visits the keys up to `start`, greatest
first. The history pages through the keys between a prefix and its clamp
`bytesAddOne prefix`; when every key there is the prefix followed by nine bytes
(`Database.Shaped`), those keys are exactly the keys under the prefix
(`window_clamp`), and `bytesSubOne` of a key read is a cursor below it and above
every smaller key (`window_bytesSubOne`). Both hold only when the clamp itself is not
a key: `SeekForPrev` stops at a key equal to its target.
-/

namespace Core.TxHistory

open State BigEndian

/-- `addressTxKey`, the string "iaddr". -/
def addressTxKey : List UInt8 := [0x69, 0x61, 0x64, 0x64, 0x72]

/-- `allTxKey`, the string "iall". -/
def allTxKey : List UInt8 := [0x69, 0x61, 0x6c, 0x6c]

def getCrossShardBytesIndb (crossShard : Bool) : List UInt8 := if crossShard then [0] else [1]

def encodeAddressTxKey (addr : Recipient) (height index : Nat) (crossShard : Bool) :
    List UInt8 :=
  addressTxKey ++ fixed 20 addr ++ fixed 4 height ++ getCrossShardBytesIndb crossShard ++
    fixed 4 index

def decodeTxKey (data : List UInt8) (keyLen addrLen : Nat) : Except Failure (Nat × Bool × Nat) :=
  if data.length ≠ keyLen + addrLen + 4 + 1 + 4 then .error (.error "input err")
  else
    .ok (value ((data.drop (keyLen + addrLen)).take 4),
      decide (data[keyLen + addrLen + 4]? = some 0),
      value (data.drop (keyLen + addrLen + 4 + 1)))

def encodeAllTxKey (height index : Nat) (crossShard : Bool) : List UInt8 :=
  allTxKey ++ fixed 4 height ++ getCrossShardBytesIndb crossShard ++ fixed 4 index

/-- `bytesSubOne`, through `big.Int`: `Bytes` drops leading zero bytes and gives the
absolute value, so the bytes of zero give 1. -/
def bytesSubOne (data : List UInt8) : List UInt8 :=
  if value data = 0 then minimal 1 else minimal (value data - 1)

def bytesAddOne (data : List UInt8) : List UInt8 := minimal (value data + 1)

/-- The nine bytes after a key's prefix. -/
def txKeySuffix (height index : Nat) (crossShard : Bool) : List UInt8 :=
  fixed 4 height ++ getCrossShardBytesIndb crossShard ++ fixed 4 index

/-- The prefix of an address's keys. -/
def addressPrefix (addr : Recipient) : List UInt8 := addressTxKey ++ fixed 20 addr

theorem encodeAllTxKey_eq (height index : Nat) (crossShard : Bool) :
    encodeAllTxKey height index crossShard = allTxKey ++ txKeySuffix height index crossShard := by
  simp [encodeAllTxKey, txKeySuffix]

@[simp] theorem length_txKeySuffix (height index : Nat) (crossShard : Bool) :
    (txKeySuffix height index crossShard).length = 9 := by
  cases crossShard <;> simp [txKeySuffix, getCrossShardBytesIndb]

/-- Decoding reads back a key's height, kind and index, each kept as a `uint32`. -/
theorem decodeTxKey_suffix (p : List UInt8) (keyLen addrLen : Nat)
    (hp : keyLen + addrLen = p.length) (height index : Nat) (crossShard : Bool) :
    decodeTxKey (p ++ txKeySuffix height index crossShard) keyLen addrLen =
      .ok (height % 2 ^ 32, crossShard, index % 2 ^ 32) := by
  have h4 : (256 : Nat) ^ 4 = 2 ^ 32 := by norm_num
  have hdrop : ∀ n, (p ++ txKeySuffix height index crossShard).drop (p.length + n) =
      (txKeySuffix height index crossShard).drop n := fun n => by
    rw [List.drop_append, List.drop_of_length_le (by omega), Nat.add_sub_cancel_left,
      List.nil_append]
  have hget : (p ++ txKeySuffix height index crossShard)[p.length + 4]? =
      some (if crossShard then 0 else 1) := by
    rw [List.getElem?_append_right (by omega), Nat.add_sub_cancel_left]
    cases crossShard <;> rfl
  simp only [decodeTxKey, hp, List.length_append, length_txKeySuffix, ne_eq, not_true_eq_false,
    if_false, hdrop, hget, Nat.add_assoc]
  cases crossShard <;>
    simp [txKeySuffix, getCrossShardBytesIndb, value_fixed, h4, List.drop_append,
      List.drop_of_length_le]

/-- The bytes of an all-transactions key decode to the fields `Core.TxIndex` keeps. -/
theorem decodeTxKey_encodeAllTxKey (height index : Nat) (crossShard : Bool) :
    (decodeTxKey (encodeAllTxKey height index crossShard) allTxKey.length 0).map
        (fun f => IndexKey.allTx f.1 f.2.1 f.2.2) =
      .ok (Core.encodeAllTxKey height index crossShard) := by
  rw [encodeAllTxKey_eq, decodeTxKey_suffix allTxKey allTxKey.length 0 rfl]
  rfl

/-- The database's keys in the comparator's order: bytewise, a proper prefix first. -/
structure Database where
  keys : List (List UInt8)
  sorted : keys.Pairwise (· < ·)

namespace Database

/-- The keys an iterator placed by `SeekForPrev(start)` visits as `Prev` moves it:
those up to `start`, greatest first. -/
def seekForPrev (db : Database) (start : List UInt8) : List (List UInt8) :=
  (db.keys.filter (· ≤ start)).reverse

/-- The keys from `lo` up to `hi`, greatest first. -/
def window (db : Database) (lo hi : List UInt8) : List (List UInt8) :=
  (db.keys.filter (fun k => lo ≤ k ∧ k ≤ hi)).reverse

/-- The keys under the prefix `p`, greatest first. -/
def under (db : Database) (p : List UInt8) : List (List UInt8) :=
  (db.keys.filter (p <+: ·)).reverse

/-- Every key from `p` up to its clamp `bytesAddOne p` is `p` followed by nine bytes. -/
def Shaped (db : Database) (p : List UInt8) : Prop :=
  ∀ k ∈ db.keys, p ≤ k → k ≤ bytesAddOne p → ∃ s, k = p ++ s ∧ s.length = 9

end Database

/-- The start a caller passes on: its clamp for an empty start or one above the clamp. -/
def clampStart (originalStartBytes start : List UInt8) : List UInt8 :=
  if start.length = 0 ∨ originalStartBytes < start then originalStartBytes else start

/-- A history prefix: its leading byte is at least 2 and it is not all 0xff bytes, so
adding one to it, or taking one from a key under it, keeps the length. -/
structure KeyPrefix (p : List UInt8) : Prop where
  two_le : 2 * 256 ^ (p.length - 1) ≤ value p
  succ_lt : value p + 1 < 256 ^ p.length

theorem keyPrefix_allTxKey : KeyPrefix allTxKey := ⟨by decide, by decide⟩

theorem keyPrefix_addressPrefix (addr : Recipient) : KeyPrefix (addressPrefix addr) := by
  have hv : value addressTxKey = 452605535346 := by decide
  have hmod := Nat.mod_lt addr (show 0 < 256 ^ 20 by norm_num)
  constructor <;>
  · simp only [addressPrefix, value_append, value_fixed, hv, List.length_append, length_fixed,
      show addressTxKey.length = 5 from rfl]
    norm_num
    omega

section Order

variable {l pre rest : List (List UInt8)} {k lo : List UInt8}

/-- An increasing list is its elements below `lo` followed by the others. -/
theorem filter_lt_append_filter_le (hl : l.Pairwise (· < ·)) (lo : List UInt8) :
    l.filter (· < lo) ++ l.filter (lo ≤ ·) = l := by
  induction l with
  | nil => rfl
  | cons a t ih =>
    rw [List.pairwise_cons] at hl
    by_cases ha : a < lo
    · simp [ha, ih hl.2]
    · -- everything after `a` is above it, so not below `lo` either
      have hnot : ∀ x ∈ t, ¬x < lo := fun x hx hx' => ha (List.lt_trans (hl.1 x hx) hx')
      have hlow : t.filter (· < lo) = [] := List.filter_eq_nil_iff.mpr (by simpa using hnot)
      have hhigh : t.filter (lo ≤ ·) = t :=
        List.filter_eq_self.mpr (by simpa [List.not_lt] using hnot)
      simp [ha, hlow, hhigh, List.not_lt.mp ha]

/-- In a decreasing list, the elements below one of its elements are those after it. -/
theorem filter_lt_of_pairwise_gt (hl : (pre ++ k :: rest).Pairwise (fun a b => b < a)) :
    (pre ++ k :: rest).filter (· < k) = rest := by
  obtain ⟨-, hkr, hpre⟩ := List.pairwise_append.mp hl
  rw [List.pairwise_cons] at hkr
  have hpre' : pre.filter (· < k) = [] := by
    refine List.filter_eq_nil_iff.mpr fun a ha hak => ?_
    have hka := hpre a ha k List.mem_cons_self
    exact List.lt_irrefl k (List.lt_trans hka (by simpa using hak))
  have hrest : rest.filter (· < k) = rest := List.filter_eq_self.mpr (by simpa using hkr.1)
  simp [List.filter_append, hpre', hrest, List.lt_irrefl]

end Order

namespace Database

variable {db : Database} {p lo hi start k : List UInt8}

theorem mem_window : k ∈ db.window lo hi ↔ k ∈ db.keys ∧ lo ≤ k ∧ k ≤ hi := by
  simp [window]

theorem window_pairwise (db : Database) (lo hi : List UInt8) :
    (db.window lo hi).Pairwise (fun a b => b < a) := by
  rw [window, List.pairwise_reverse]
  exact db.sorted.sublist List.filter_sublist

theorem under_pairwise (db : Database) (p : List UInt8) :
    (db.under p).Pairwise (fun a b => b < a) := by
  rw [under, List.pairwise_reverse]
  exact db.sorted.sublist List.filter_sublist

/-- The iterator's keys are the window from `lo`, then keys below `lo`. -/
theorem seekForPrev_eq (db : Database) (lo start : List UInt8) :
    ∃ below, db.seekForPrev start = db.window lo start ++ below ∧ ∀ k ∈ below, k < lo := by
  have hs : (db.keys.filter (· ≤ start)).Pairwise (· < ·) := db.sorted.sublist List.filter_sublist
  have hsplit := filter_lt_append_filter_le hs lo
  have hwindow : ((db.keys.filter (· ≤ start)).filter (lo ≤ ·)).reverse = db.window lo start := by
    rw [window, List.filter_filter]
    congr 1
    exact List.filter_congr fun x _ => by rw [Bool.decide_and]
  refine ⟨((db.keys.filter (· ≤ start)).filter (· < lo)).reverse, ?_, fun k hk => ?_⟩
  · rw [seekForPrev]
    conv_lhs => rw [← hsplit]
    rw [List.reverse_append, hwindow]
  · simp only [List.mem_reverse, List.mem_filter, decide_eq_true_eq] at hk
    exact hk.2

end Database

namespace KeyPrefix

variable {p : List UInt8}

theorem length_pos (hp : KeyPrefix p) : 0 < p.length := by
  have h := hp.two_le
  cases p with
  | nil => simp at h
  | cons => simp

theorem value_bytesAddOne (data : List UInt8) : value (bytesAddOne data) = value data + 1 :=
  value_minimal _

/-- The clamp of "iall" is "ialm". -/
example : bytesAddOne allTxKey = [0x69, 0x61, 0x6c, 0x6d] := by decide

theorem length_bytesAddOne (hp : KeyPrefix p) : (bytesAddOne p).length = p.length := by
  have hpos := hp.length_pos
  have hlo := hp.two_le
  have hhi := hp.succ_lt
  have hlen := length_minimal_eq (k := p.length - 1) (n := value p + 1) (by omega)
    (by rw [Nat.sub_add_cancel hpos]; omega)
  rw [bytesAddOne, hlen]
  omega

/-- Every key under the prefix is below its clamp. -/
theorem lt_bytesAddOne (hp : KeyPrefix p) (s : List UInt8) : p ++ s < bytesAddOne p := by
  have hlt : p < bytesAddOne p := by
    rw [lt_iff_value_lt hp.length_bytesAddOne.symm, value_bytesAddOne]
    omega
  simpa using append_lt_append hp.length_bytesAddOne.symm hlt s []

theorem two_le_value_append (hp : KeyPrefix p) (s : List UInt8) :
    2 * 256 ^ (p.length - 1 + s.length) ≤ value (p ++ s) := by
  calc 2 * 256 ^ (p.length - 1 + s.length)
      = 2 * 256 ^ (p.length - 1) * 256 ^ s.length := by rw [pow_add, Nat.mul_assoc]
    _ ≤ value p * 256 ^ s.length := Nat.mul_le_mul_right _ hp.two_le
    _ ≤ value (p ++ s) := by rw [value_append]; exact Nat.le_add_right _ _

theorem value_bytesSubOne {data : List UInt8} (h : value data ≠ 0) :
    value (bytesSubOne data) = value data - 1 := by
  rw [bytesSubOne, if_neg h, value_minimal]

theorem length_bytesSubOne (hp : KeyPrefix p) (s : List UInt8) :
    (bytesSubOne (p ++ s)).length = (p ++ s).length := by
  have hpos := hp.length_pos
  have hge := hp.two_le_value_append s
  have hlt := value_lt (p ++ s)
  have hexp : p.length - 1 + s.length + 1 = (p ++ s).length := by
    rw [List.length_append]
    omega
  have hone : 1 ≤ 256 ^ (p.length - 1 + s.length) := Nat.one_le_pow _ _ (by norm_num)
  rw [bytesSubOne, if_neg (by omega),
    length_minimal_eq (k := p.length - 1 + s.length) (n := value (p ++ s) - 1) (by omega)
      (by rw [hexp]; omega), hexp]

theorem bytesSubOne_lt (hp : KeyPrefix p) (s : List UInt8) : bytesSubOne (p ++ s) < p ++ s := by
  have hge := hp.two_le_value_append s
  have hone : 1 ≤ 256 ^ (p.length - 1 + s.length) := Nat.one_le_pow _ _ (by norm_num)
  rw [lt_iff_value_lt (hp.length_bytesSubOne s), value_bytesSubOne (by omega)]
  omega

end KeyPrefix

section Window

variable {db : Database} {p start k : List UInt8}

theorem Database.Shaped.length_eq (hs : db.Shaped p) (hk : k ∈ db.keys) (hlo : p ≤ k)
    (hhi : k ≤ bytesAddOne p) : k.length = p.length + 9 := by
  obtain ⟨s, rfl, hlen⟩ := hs k hk hlo hhi
  rw [List.length_append, hlen]

/-- From the clamp, the window holds exactly the keys under the prefix. -/
theorem window_clamp (hp : KeyPrefix p) (hs : db.Shaped p) :
    db.window p (bytesAddOne p) = db.under p := by
  rw [Database.window, Database.under]
  congr 1
  refine List.filter_congr fun k hk => decide_eq_decide.mpr ⟨fun ⟨hlo, hhi⟩ => ?_, ?_⟩
  · obtain ⟨s, rfl, -⟩ := hs k hk hlo hhi
    exact List.prefix_append p s
  · rintro ⟨s, rfl⟩
    exact ⟨(List.prefix_append p s).le, List.le_of_lt (hp.lt_bytesAddOne s)⟩

/-- The prefix alone is no key. -/
theorem window_self (hp : KeyPrefix p) (hs : db.Shaped p) : db.window p p = [] := by
  refine List.eq_nil_iff_forall_not_mem.mpr fun k hk => ?_
  obtain ⟨hkdb, hlo, hhi⟩ := Database.mem_window.mp hk
  obtain rfl : k = p := List.le_antisymm hhi hlo
  have hclamp : k ≤ bytesAddOne k := List.le_of_lt (by simpa using hp.lt_bytesAddOne [])
  have := hs.length_eq hkdb hlo hclamp
  omega

/-- Below a key of the window, `bytesSubOne` of it is a cursor for the keys after it:
the keys of the window up to it are those of a window below the key. -/
theorem window_bytesSubOne (hp : KeyPrefix p) (hs : db.Shaped p) (hstart : start ≤ bytesAddOne p)
    (hk : k ∈ db.window p start) :
    db.window p (bytesSubOne k) = (db.window p start).filter (· < k) := by
  obtain ⟨hkdb, hlo, hhi⟩ := Database.mem_window.mp hk
  obtain ⟨t, rfl, ht⟩ := hs _ hkdb hlo (List.le_trans hhi hstart)
  have hsub := hp.bytesSubOne_lt t
  rw [Database.window, Database.window, List.filter_reverse, List.filter_filter]
  congr 1
  refine List.filter_congr fun k' hk' => ?_
  rw [Bool.and_comm, ← Bool.decide_and]
  refine decide_eq_decide.mpr ⟨fun ⟨hlo', hle⟩ => ?_, fun ⟨⟨hlo', hle⟩, hlt⟩ => ⟨hlo', ?_⟩⟩
  · -- below the cursor is below the key
    have hlt := List.lt_of_le_of_lt hle hsub
    exact ⟨⟨hlo', List.le_trans (List.le_of_lt hlt) hhi⟩, hlt⟩
  · -- a key of the window below `p ++ t` has its length, so it is at most one less
    have hlen := hs.length_eq hk' hlo' (List.le_trans hle hstart)
    have hlen' : k'.length = (bytesSubOne (p ++ t)).length := by
      rw [hp.length_bytesSubOne, List.length_append, ht, hlen]
    have hv := (lt_iff_value_lt (by rw [hlen', hp.length_bytesSubOne])).mp hlt
    rw [le_iff_value_le hlen', KeyPrefix.value_bytesSubOne (by omega)]
    omega

end Window

theorem clampStart_le (o s : List UInt8) : clampStart o s ≤ o := by
  unfold clampStart
  split
  · exact List.le_refl o
  · rename_i h
    exact List.not_lt.mp fun h' => h (.inr h')

theorem clampStart_nil (o : List UInt8) : clampStart o [] = o := by
  simp [clampStart]

theorem clampStart_of_le {o s : List UInt8} (hne : s ≠ []) (hle : s ≤ o) : clampStart o s = s := by
  rw [clampStart, if_neg]
  rintro (h | h)
  · exact hne (List.length_eq_zero_iff.mp h)
  · exact List.not_lt.mpr hle h

end Core.TxHistory
