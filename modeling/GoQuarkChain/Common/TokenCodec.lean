import GoQuarkChain.Lib.BijectiveBase
import GoQuarkChain.Lib.ExceptState

/-!
# Token names and token ids

`TokenIDEncode` reads a token name, a byte string over `0-9A-Z` of at most twelve
characters, as a number in bijective base 36: the last character counts its face
value and every other one its face value plus one, times its power of 36.
`TokenIdDecode` writes the characters back from the last one up and reverses them.

`TokenIDEncode` has no error result: a name of thirteen bytes or more, an empty
name (`str[len(str)-1]`) and a byte outside `0-9A-Z` panic, and the model returns
the panic's text as an error. `TokenIdDecode` returns its errors. Arithmetic is
on `uint64` and kept modulo `2 ^ 64`; on valid names nothing wraps.
-/

namespace Common

open BijectiveBase

def TOKENBASE : Nat := 36

/-- The id of `ZZZZZZZZZZZZ`. -/
def TOKENIDMAX : Nat := 4873763662273663091

/-- `TokenCharEncode`. -/
def tokenCharEncode (char : UInt8) : Except String Nat :=
  if char ≥ 'A'.toUInt8 ∧ char ≤ 'Z'.toUInt8 then .ok (10 + (char - 'A'.toUInt8).toNat)
  else if char ≥ '0'.toUInt8 ∧ char ≤ '9'.toUInt8 then .ok (char - '0'.toUInt8).toNat
  else .error s!"unknown character {char}"

/-- `TokenCharDecode`: `byte(...)` keeps the low eight bits. -/
def tokenCharDecode (id : Nat) : Except String UInt8 :=
  if !(id < TOKENBASE) then .error s!"incalid char {id}"
  else if id < 10 then .ok (UInt8.ofNat ('0'.toNat + id))
  else .ok (UInt8.ofNat ('A'.toNat + id - 10))

/-- One round of the loop of `TokenIDEncode`: the id and the power of 36 so far. -/
def encodeStep (acc : Nat × Nat) (char : UInt8) : Except String (Nat × Nat) := do
  let e ← tokenCharEncode char
  pure ((acc.1 + acc.2 * (e + 1)) % 2 ^ 64, acc.2 * TOKENBASE % 2 ^ 64)

/-- `TokenIDEncode`: the characters before the last are read from the one next to it. -/
def tokenIDEncode (str : List UInt8) : Except String Nat :=
  if str.length ≥ 13 then .error "name too long"
  else
    match str.getLast? with
    | none => .error "runtime error: index out of range [-1]"
    | some last => do
      let id ← tokenCharEncode last
      let acc ← str.dropLast.reverse.foldlM encodeStep (id, TOKENBASE)
      pure acc.1

/-- The loop of `TokenIdDecode`, which only a `break` leaves. -/
def decodeLoop (id : Nat) (name : List UInt8) : Except String (List UInt8) := do
  let t ← tokenCharDecode (id % TOKENBASE)
  let name := name ++ [t]
  if id / TOKENBASE < 1 then pure name
  else decodeLoop (id / TOKENBASE - 1) name
termination_by id
decreasing_by
  have : 1 ≤ id / TOKENBASE := Nat.le_of_not_lt ‹_›
  have : id / TOKENBASE ≤ id := Nat.div_le_self id TOKENBASE
  omega

/-- `TokenIdDecode`; `ReverseString` reverses the ASCII name byte by byte. -/
def tokenIdDecode (id : Nat) : Except String (List UInt8) := do
  if id > TOKENIDMAX then throw "it too big or negative"
  let t ← tokenCharDecode (id % TOKENBASE)
  let name := [t]
  if id / TOKENBASE < 1 then return name
  let name ← decodeLoop (id / TOKENBASE - 1) name
  return name.reverse

/-! ## Characters and digits -/

/-- A byte of `0-9A-Z`. -/
def isTokenChar (c : UInt8) : Bool :=
  ('0'.toUInt8 ≤ c && c ≤ '9'.toUInt8) || ('A'.toUInt8 ≤ c && c ≤ 'Z'.toUInt8)

/-- The digit `TokenCharEncode` gives a byte of `0-9A-Z`. -/
def charDigit (c : UInt8) : Nat :=
  if c ≥ 'A'.toUInt8 then 10 + (c - 'A'.toUInt8).toNat else (c - '0'.toUInt8).toNat

/-- The byte `TokenCharDecode` gives a digit below 36. -/
def digitChar (d : Nat) : UInt8 :=
  if d < 10 then UInt8.ofNat ('0'.toNat + d) else UInt8.ofNat ('A'.toNat + d - 10)

@[simp] theorem toNat_zero_char : '0'.toUInt8.toNat = 48 := rfl

@[simp] theorem toNat_nine_char : '9'.toUInt8.toNat = 57 := rfl

@[simp] theorem toNat_A_char : 'A'.toUInt8.toNat = 65 := rfl

@[simp] theorem toNat_Z_char : 'Z'.toUInt8.toNat = 90 := rfl

theorem isTokenChar_iff (c : UInt8) :
    isTokenChar c = true ↔ (48 ≤ c.toNat ∧ c.toNat ≤ 57) ∨ (65 ≤ c.toNat ∧ c.toNat ≤ 90) := by
  simp [isTokenChar, UInt8.le_iff_toNat_le]

theorem charDigit_eq {c : UInt8} (hc : isTokenChar c = true) :
    charDigit c = if 65 ≤ c.toNat then c.toNat - 55 else c.toNat - 48 := by
  rw [isTokenChar_iff] at hc
  have hge : 'A'.toUInt8 ≤ c ↔ 65 ≤ c.toNat := by simp [UInt8.le_iff_toNat_le]
  unfold charDigit
  by_cases h : 65 ≤ c.toNat
  · rw [if_pos (hge.mpr h), if_pos h, UInt8.toNat_sub_of_le _ _ (hge.mpr h), toNat_A_char]
    omega
  · have hzero : '0'.toUInt8 ≤ c := by
      simp only [UInt8.le_iff_toNat_le, toNat_zero_char]
      omega
    rw [if_neg (mt hge.mp h), if_neg h, UInt8.toNat_sub_of_le _ _ hzero, toNat_zero_char]

theorem charDigit_lt {c : UInt8} (hc : isTokenChar c = true) : charDigit c < 36 := by
  rw [charDigit_eq hc]
  rw [isTokenChar_iff] at hc
  split_ifs <;> omega

theorem digitChar_charDigit {c : UInt8} (hc : isTokenChar c = true) :
    digitChar (charDigit c) = c := by
  rw [charDigit_eq hc]
  rw [isTokenChar_iff] at hc
  apply UInt8.toNat_inj.mp
  unfold digitChar
  split_ifs <;> simp <;> omega

theorem toNat_digitChar (d : Nat) (hd : d < 36) :
    (digitChar d).toNat = if d < 10 then 48 + d else 55 + d := by
  unfold digitChar
  split_ifs <;> simp <;> omega

theorem isTokenChar_digitChar {d : Nat} (hd : d < 36) : isTokenChar (digitChar d) = true := by
  rw [isTokenChar_iff, toNat_digitChar d hd]
  split_ifs <;> omega

theorem charDigit_digitChar {d : Nat} (hd : d < 36) : charDigit (digitChar d) = d := by
  rw [charDigit_eq (isTokenChar_digitChar hd), toNat_digitChar d hd]
  split_ifs <;> omega

theorem tokenCharEncode_eq {c : UInt8} (hc : isTokenChar c = true) :
    tokenCharEncode c = .ok (charDigit c) := by
  have hge : 'A'.toUInt8 ≤ c ↔ 65 ≤ c.toNat := by simp [UInt8.le_iff_toNat_le]
  have hrange := (isTokenChar_iff c).mp hc
  unfold tokenCharEncode charDigit
  by_cases h : 65 ≤ c.toNat
  · have hZ : c ≤ 'Z'.toUInt8 := by
      simp only [UInt8.le_iff_toNat_le, toNat_Z_char]
      omega
    rw [if_pos ⟨hge.mpr h, hZ⟩, if_pos (hge.mpr h)]
  · have hA : ¬('A'.toUInt8 ≤ c ∧ c ≤ 'Z'.toUInt8) := fun h' => h (hge.mp h'.1)
    have h09 : '0'.toUInt8 ≤ c ∧ c ≤ '9'.toUInt8 := by
      simp only [UInt8.le_iff_toNat_le, toNat_zero_char, toNat_nine_char]
      omega
    rw [if_neg hA, if_pos h09, if_neg (mt hge.mp h)]

theorem tokenCharDecode_eq {d : Nat} (hd : d < 36) : tokenCharDecode d = .ok (digitChar d) := by
  have hbase : d < TOKENBASE := hd
  unfold tokenCharDecode digitChar
  simp only [hbase, decide_true, Bool.not_true, Bool.false_eq_true, if_false]
  split_ifs <;> rfl

/-! ## Encoding -/

/-- The loop of `TokenIDEncode` on bytes of `0-9A-Z`, by the digits they stand for. -/
theorem foldlM_encodeStep {cs : List UInt8} (hcs : ∀ c ∈ cs, isTokenChar c = true)
    (acc : Nat × Nat) :
    cs.foldlM encodeStep acc = .ok (cs.foldl (fun acc c =>
      ((acc.1 + acc.2 * (charDigit c + 1)) % 2 ^ 64, acc.2 * TOKENBASE % 2 ^ 64)) acc) := by
  refine Except.foldlM_eq_ok _ (fun _ => True) ?_ trivial
  intro acc c hc _
  refine ⟨?_, trivial⟩
  simp only [encodeStep, tokenCharEncode_eq (hcs c hc), Except.ok_bind, Except.pure_eq_ok]

/-- Modulo `2 ^ 64`, the loop adds the digits above the last at their powers of 36. -/
theorem foldl_encode_mod (ds : List UInt8) {id base : Nat} (hid : id < 2 ^ 64)
    (hbase : base < 2 ^ 64) :
    (ds.foldl (fun acc c =>
      ((acc.1 + acc.2 * (charDigit c + 1)) % 2 ^ 64, acc.2 * TOKENBASE % 2 ^ 64)) (id, base)).1 =
      (id + base * upperValue 36 (ds.map charDigit)) % 2 ^ 64 := by
  induction ds generalizing id base with
  | nil => simp only [List.foldl_nil, List.map_nil, upperValue, Nat.mul_zero, Nat.add_zero,
      Nat.mod_eq_of_lt hid]
  | cons c ds ih =>
    rw [List.foldl_cons]
    dsimp only
    rw [ih (Nat.mod_lt _ (by norm_num)) (Nat.mod_lt _ (by norm_num)), List.map_cons, upperValue]
    -- both sides agree modulo `2 ^ 64`
    have h1 := Nat.mod_modEq (id + base * (charDigit c + 1)) (2 ^ 64)
    have h2 := (Nat.mod_modEq (base * TOKENBASE) (2 ^ 64)).mul_right
      (upperValue 36 (ds.map charDigit))
    have hring : id + base * (charDigit c + 1) + base * TOKENBASE *
        upperValue 36 (ds.map charDigit) =
        id + base * (charDigit c + 1 + 36 * upperValue 36 (ds.map charDigit)) := by
      unfold TOKENBASE
      ring
    have hsum := h1.add h2
    rw [hring] at hsum
    exact hsum

/-- The number a valid name denotes is below `36 + 36 ^ 2 + ... + 36 ^ 12`. -/
theorem value_lt_limit {cs : List UInt8} (hne : cs ≠ []) (hlen : cs.length ≤ 12)
    (hcs : ∀ c ∈ cs, isTokenChar c = true) :
    value 36 (cs.map charDigit) < limit 36 12 := by
  have hdig : ∀ d ∈ cs.map charDigit, d < 36 := by
    intro d hd
    obtain ⟨c, hc, rfl⟩ := List.mem_map.mp hd
    exact charDigit_lt (hcs c hc)
  have hb := value_bounds ((fun h => hne (List.map_eq_nil_iff.mp h))) hdig
  rw [List.length_map] at hb
  exact lt_of_lt_of_le hb.2 (limit_mono (by norm_num) hlen)

theorem limit_twelve : limit 36 12 = TOKENIDMAX + 1 := by decide

/-- A valid name is encoded as the number it denotes in bijective base 36. -/
theorem tokenIDEncode_eq {str : List UInt8} (hne : str ≠ []) (hlen : str.length ≤ 12)
    (hstr : ∀ c ∈ str, isTokenChar c = true) :
    tokenIDEncode str = .ok (value 36 (str.map charDigit)) := by
  rcases List.eq_nil_or_concat str with rfl | ⟨init, last, rfl⟩
  · exact absurd rfl hne
  simp only [List.concat_eq_append] at hne hlen hstr ⊢
  have hinit : ∀ c ∈ init.reverse, isTokenChar c = true :=
    fun c hc => hstr c (List.mem_append_left _ (List.mem_reverse.mp hc))
  have hlast : isTokenChar last = true := hstr last (by simp)
  have hvalue := value_lt_limit hne hlen hstr
  rw [limit_twelve] at hvalue
  have hsmall : value 36 ((init ++ [last]).map charDigit) < 2 ^ 64 := by
    unfold TOKENIDMAX at hvalue
    omega
  unfold tokenIDEncode
  rw [if_neg (by omega), show (init ++ [last]).getLast? = some last by simp]
  simp only [tokenCharEncode_eq hlast, Except.ok_bind, List.dropLast_concat,
    foldlM_encodeStep hinit, Except.pure_eq_ok]
  rw [foldl_encode_mod _ (Nat.lt_of_lt_of_le (charDigit_lt hlast) (by decide)) (by decide)]
  rw [List.map_append, List.map_singleton, value_append_singleton_eq, ← List.map_reverse] at hsmall ⊢
  exact congrArg Except.ok (Nat.mod_eq_of_lt hsmall)

/-! ## Decoding -/

/-- The loop of `TokenIdDecode` appends the digits of `id`, last one first. -/
theorem decodeLoop_eq (id : Nat) (name : List UInt8) :
    decodeLoop id name = .ok (name ++ ((digitsOf 36 id).reverse.map digitChar)) := by
  induction id using Nat.strong_induction_on generalizing name with
  | _ id ih =>
    rw [decodeLoop, tokenCharDecode_eq (d := id % TOKENBASE) (Nat.mod_lt id (by decide)),
      Except.ok_bind, digitsOf.eq_def]
    by_cases h : id / 36 = 0
    · have hlt : id / TOKENBASE < 1 := by unfold TOKENBASE; omega
      rw [if_pos hlt, if_pos h]
      rfl
    · have hlt : ¬id / TOKENBASE < 1 := by unfold TOKENBASE; omega
      have hle : id / 36 ≤ id := Nat.div_le_self id 36
      rw [if_neg hlt, if_neg h, ih (id / TOKENBASE - 1) (by unfold TOKENBASE; omega)]
      simp [TOKENBASE]

/-- An id up to `TOKENIDMAX` is decoded to the name of its bijective base-36 digits. -/
theorem tokenIdDecode_eq {id : Nat} (hid : id ≤ TOKENIDMAX) :
    tokenIdDecode id = .ok ((digitsOf 36 id).map digitChar) := by
  unfold tokenIdDecode
  rw [if_neg (by omega)]
  simp only [Except.pure_eq_ok, Except.ok_bind,
    tokenCharDecode_eq (d := id % TOKENBASE) (Nat.mod_lt id (by decide))]
  rw [digitsOf.eq_def]
  by_cases h : id / 36 = 0
  · have hlt : id / TOKENBASE < 1 := by unfold TOKENBASE; omega
    rw [if_pos hlt, if_pos h]
    rfl
  · have hlt : ¬id / TOKENBASE < 1 := by unfold TOKENBASE; omega
    rw [if_neg hlt, if_neg h, decodeLoop_eq]
    simp [TOKENBASE]

theorem tokenIdDecode_of_gt {id : Nat} (hid : TOKENIDMAX < id) :
    tokenIdDecode id = .error "it too big or negative" := by
  unfold tokenIdDecode
  rw [if_pos hid]
  rfl

/-! ## The codec -/

theorem tokenId_codec_bijective :
    (∀ s : List UInt8, s ≠ [] → s.length ≤ 12 → (∀ c ∈ s, isTokenChar c = true) →
      ∃ id, tokenIDEncode s = .ok id ∧ id ≤ TOKENIDMAX ∧ tokenIdDecode id = .ok s) ∧
    (∀ id ≤ TOKENIDMAX, ∃ s, tokenIdDecode id = .ok s ∧ tokenIDEncode s = .ok id) ∧
    (∀ id, TOKENIDMAX < id → ∃ err, tokenIdDecode id = .error err) := by
  refine ⟨?_, ?_, fun id hid => ⟨_, tokenIdDecode_of_gt hid⟩⟩
  · intro s hne hlen hs
    have hdig : ∀ d ∈ s.map charDigit, d < 36 := by
      intro d hd
      obtain ⟨c, hc, rfl⟩ := List.mem_map.mp hd
      exact charDigit_lt (hs c hc)
    have hmax : value 36 (s.map charDigit) ≤ TOKENIDMAX := by
      have := value_lt_limit hne hlen hs
      rw [limit_twelve] at this
      omega
    refine ⟨_, tokenIDEncode_eq hne hlen hs, hmax, ?_⟩
    have hround : s.map (digitChar ∘ charDigit) = s := by
      conv_rhs => rw [← List.map_id s]
      exact List.map_congr_left fun c hc => digitChar_charDigit (hs c hc)
    rw [tokenIdDecode_eq hmax, digitsOf_value (by norm_num) (fun h => hne (List.map_eq_nil_iff.mp h))
      hdig, List.map_map, hround]
  · intro id hid
    have hdig : ∀ d ∈ digitsOf 36 id, d < 36 := fun d hd => lt_of_mem_digitsOf (by norm_num) hd
    have hlen : (digitsOf 36 id).length ≤ 12 := by
      rw [length_digitsOf_le_iff (by norm_num) id (by norm_num), limit_twelve]
      omega
    have hchars : ∀ c ∈ (digitsOf 36 id).map digitChar, isTokenChar c = true := by
      intro c hc
      obtain ⟨d, hd, rfl⟩ := List.mem_map.mp hc
      exact isTokenChar_digitChar (hdig d hd)
    refine ⟨_, tokenIdDecode_eq hid, ?_⟩
    rw [tokenIDEncode_eq (fun h => digitsOf_ne_nil id (List.map_eq_nil_iff.mp h)) (by simpa using hlen) hchars,
      List.map_map]
    have hid' : (digitsOf 36 id).map (charDigit ∘ digitChar) = digitsOf 36 id := by
      conv_rhs => rw [← List.map_id (digitsOf 36 id)]
      exact List.map_congr_left fun d hd => charDigit_digitChar (hdig d hd)
    rw [hid', value_digitsOf (by norm_num)]

example : tokenIDEncode ['Q'.toUInt8, 'K'.toUInt8, 'C'.toUInt8] = .ok 35760 := by decide

end Common
