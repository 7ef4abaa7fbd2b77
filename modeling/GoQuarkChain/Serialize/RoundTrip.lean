import GoQuarkChain.Serialize.Serializer
import GoQuarkChain.Lib.ExceptState

/-!
# The codec's round trip

`Serialize` writes a value and `Deserialize` reads it back into a fresh variable of
its type. What comes back differs from what was written in four ways the encoding
cannot see: a nil fixed-size big number is written as zeros and read as zero, a
negative one loses its sign, a nil pointer without the `nil` tag is written as its
element's zero value and read as a pointer to that, and an ignored struct field is
not written at all and reads as its zero value. `norm` makes exactly those changes.

A value `fits` a type when it has the type and every number and length fits the
bytes the encoding gives it; the one-byte length prefix of a `big.Int` is the reason
a nonnegative big number must have fewer than `256` bytes. For such a value
`Serialize` succeeds, decoding reads back exactly the bytes written and returns the
value's normal form, and writing that normal form gives the same bytes again
(`serialize_roundtrip`).

The proofs follow the type: one case per constructor of `SerType`, and one lemma for
the element loops of slices and arrays, which takes the elements' round trip as a
hypothesis.
-/

namespace Serialize

/-- The unsigned kinds' ranges: the fixed widths, and `uint`, which is read back
into a `uint64`. -/
def uintFits : UintKind → Nat → Bool
  | .uint8, n => decide (n < 2 ^ 8)
  | .uint16, n => decide (n < 2 ^ 16)
  | .uint32, n => decide (n < 2 ^ 32)
  | .uint64, n => decide (n < 2 ^ 64)
  | .uint, n => decide (n < 2 ^ 64)

mutual
/-- The value has the type, and every number and length fits the bytes the encoding
gives it; a length prefix that is read back has at least one byte. -/
def fits : SerType → Tags → SerVal → Bool
  | .bool, _, .bool _ => true
  | .uint kind, _, .uint n => uintFits kind n
  | .bigInt, _, .bigInt i => decide (0 ≤ i ∧ (BigEndian.minimal i.toNat).length < 256)
  | .fixSizeBigUint size, _, .fixSizeBigUint v =>
    decide ((BigEndian.minimal (v.getD 0).natAbs).length ≤ size)
  | .string, _, .string s => decide (s.length < 256 ^ 4)
  | .byteArray len, _, .bytes bs => decide (bs.length = len)
  | .byteSlice, ts, .bytes bs =>
    decide (1 ≤ ts.byteSizeOfSliceLen ∧ bs.length < 256 ^ ts.byteSizeOfSliceLen)
  | .slice elem, ts, .list vs =>
    decide (1 ≤ ts.byteSizeOfSliceLen ∧ vs.length < 256 ^ ts.byteSizeOfSliceLen) &&
      vs.all fun v => fits elem {} v
  | .array len elem, _, .list vs => decide (vs.length = len) && vs.all fun v => fits elem {} v
  | .ptr elem, ts, .ptr none => ts.nilOK || fits elem ts (zeroVal elem)
  | .ptr elem, ts, .ptr (some v) => fits elem ts v
  | .struct _ fields, _, .struct vs => fitsFields fields vs
  | _, _, _ => false

def fitsFields : List (String × Tags × SerType) → List SerVal → Bool
  | [], [] => true
  | (_, tags, ty) :: fs, v :: vs => (tags.ignored || fits ty tags v) && fitsFields fs vs
  | _, _ => false
end

mutual
/-- What decoding the encoding of a value returns. -/
def norm : SerType → Tags → SerVal → SerVal
  | .fixSizeBigUint _, _, .fixSizeBigUint v => .fixSizeBigUint (some (v.getD 0).natAbs)
  | .slice elem, _, .list vs => .list (vs.map fun v => norm elem {} v)
  | .array _ elem, _, .list vs => .list (vs.map fun v => norm elem {} v)
  | .ptr elem, ts, .ptr none =>
    if ts.nilOK then .ptr none else .ptr (some (norm elem ts (zeroVal elem)))
  | .ptr elem, ts, .ptr (some v) => .ptr (some (norm elem ts v))
  | .struct _ fields, _, .struct vs => .struct (normFields fields vs)
  | _, _, v => v

def normFields : List (String × Tags × SerType) → List SerVal → List SerVal
  | (_, tags, ty) :: fs, v :: vs =>
    (if tags.ignored then zeroVal ty else norm ty tags v) :: normFields fs vs
  | _, vs => vs
end

/-! ## Encodings of numbers -/

/-- A nonnegative big number with fewer than `256` bytes: its length byte, then its
bytes. -/
theorem serializeBigInt_of_nonneg {i : Int} (h0 : 0 ≤ i)
    (hlen : (BigEndian.minimal i.toNat).length < 256) :
    serializeBigInt i = .ok (BigEndian.fixed 1 (BigEndian.minimal i.toNat).length ++
      BigEndian.minimal i.toNat) := by
  have hbytes : (if 0 < i then BigEndian.minimal i.toNat else []) = BigEndian.minimal i.toNat := by
    split
    · rfl
    · -- zero has the empty shortest encoding
      have hi : i.toNat = 0 := by omega
      rw [hi]
      rfl
  have hbyte : UInt8.ofNat (BigEndian.minimal i.toNat).length =
      UInt8.ofNat ((BigEndian.minimal i.toNat).length % 256) := by
    rw [Nat.mod_eq_of_lt hlen]
  simp only [serializeBigInt, not_lt.mpr h0, if_false, hbytes, hbyte]
  rfl

/-- The fixed-width read of a number below `256 ^ k`. -/
theorem Reads.getBytes_fixed {k n : Nat} :
    Reads (Serialize.getBytes k) (BigEndian.fixed k n) (BigEndian.fixed k n) := by
  have h := Reads.getBytes (BigEndian.fixed k n)
  rwa [BigEndian.length_fixed] at h

/-! ## The element loop -/

/-- If each element's encoding reads back as `f` of it, the loop over `n` elements reads
back the list of their images. -/
theorem reads_deserializeElems {ser : SerVal → Except String (List UInt8)}
    {de : Decoder SerVal} {f : SerVal → SerVal} :
    ∀ {vs : List SerVal} {bytes : List UInt8},
      (∀ v ∈ vs, ∀ b, ser v = .ok b → Reads de b (f v)) →
      serializeElems ser vs = .ok bytes → Reads (deserializeElems de vs.length) bytes (vs.map f)
  | [], bytes, _, hser => by
    cases hser
    exact Reads.pure []
  | v :: vs, bytes, hall, hser => by
    obtain ⟨head, hhead, hrest⟩ := Except.bind_eq_ok.mp hser
    obtain ⟨tail, htail, hbytes⟩ := Except.bind_eq_ok.mp hrest
    cases hbytes
    have hv := hall v List.mem_cons_self head hhead
    have hvs := reads_deserializeElems (fun w hw => hall w (List.mem_cons_of_mem v hw)) htail
    exact (Reads.bind hv (Reads.bind hvs (Reads.pure (f v :: vs.map f)))).congr
      (by rw [List.append_nil])

/-- A decoder that reads its bytes still does inside `tryCatch`, whose handler never
runs. -/
theorem Reads.tryCatch_of {α : Type} {de : Decoder α} {handler : String → Decoder α}
    {bytes : List UInt8} {w : α} (h : Reads de bytes w) :
    Reads (tryCatch de handler) bytes w := by
  intro bb rest hrest
  have hrun := h bb rest hrest
  -- the `StateT` instance runs the decoder and hands an error to the handler
  show tryCatchThe String (de.run bb) (fun e => (handler e).run bb) = _
  rw [hrun]
  rfl

/-! ## Every fitting value is read back as its normal form -/

theorem deserializePtr_of_not_nilOK {de : Decoder SerVal} {ts : Tags} (h : ts.nilOK = false) :
    deserializePtr de ts = de >>= fun v => pure (.ptr (some v)) := by
  simp [deserializePtr, h]

theorem deserializePtr_of_nilOK {de : Decoder SerVal} {ts : Tags} (h : ts.nilOK = true) :
    deserializePtr de ts = getUInt 1 >>= fun b =>
      if b = 0 then pure (.ptr none) else de >>= fun v => pure (.ptr (some v)) := by
  simp [deserializePtr, h]

/-- The one-byte read of a pointer's marker. -/
theorem Reads.getUInt_one (b : UInt8) : Reads (getUInt 1) [b] b.toNat := by
  have hpure : Reads (Pure.pure (BigEndian.value [b]) : Decoder Nat) [] b.toNat := by
    rw [BigEndian.value_singleton]
    exact Reads.pure _
  exact Reads.bind (Reads.getBytes [b]) hpure

/-- The fixed-width unsigned kinds: the number comes back below `2 ^ 64`. -/
theorem reads_uint_fixed {k n : Nat} (hk : n < 256 ^ k) (h64 : n < 2 ^ 64) :
    Reads (do let bytes ← Serialize.getBytes k; pure (SerVal.uint (BigEndian.value bytes % 2 ^ 64)))
      (BigEndian.fixed k n) (.uint n) := by
  have hval : BigEndian.value (BigEndian.fixed k n) % 2 ^ 64 = n := by
    rw [BigEndian.value_fixed_of_lt hk, Nat.mod_eq_of_lt h64]
  have hpure : Reads (pure (SerVal.uint (BigEndian.value (BigEndian.fixed k n) % 2 ^ 64)) :
      Decoder SerVal) [] (.uint n) := by
    rw [hval]
    exact Reads.pure _
  exact (Reads.bind Reads.getBytes_fixed hpure).congr (List.append_nil _)

mutual
/-- A value that fits its type, written under some tags, is read back under the same
tags as its normal form, from exactly the bytes written. -/
theorem reads_serializer : ∀ (ty : SerType) (ts : Tags) (v : SerVal) {bytes : List UInt8},
    fits ty ts v = true → serializer ty v ts = .ok bytes →
      Reads (deserializer ty ts) bytes (norm ty ts v)
  | .bool, ts, v, bytes, hfit, hser => by
    cases v
    case bool b =>
      cases hser
      cases b
      · exact Reads.bind (Reads.getBytes [0]) (Reads.pure (SerVal.bool false))
      · exact Reads.bind (Reads.getBytes [1]) (Reads.pure (SerVal.bool true))
    all_goals exact absurd hfit Bool.false_ne_true
  | .uint kind, ts, v, bytes, hfit, hser => by
    cases v
    case uint n =>
      cases kind
      case uint8 =>
        have hn : n < 256 := by simpa [fits, uintFits] using hfit
        have hbyte : BigEndian.fixed 1 n = [UInt8.ofNat n] := by
          simp [BigEndian.fixed, Nat.mod_eq_of_lt hn]
        cases hser
        exact hbyte ▸ reads_uint_fixed (by simpa using hn) (by omega)
      case uint16 =>
        have hn : n < 2 ^ 16 := by simpa [fits, uintFits] using hfit
        cases hser
        exact reads_uint_fixed (by simpa using hn) (by omega)
      case uint32 =>
        have hn : n < 2 ^ 32 := by simpa [fits, uintFits] using hfit
        cases hser
        exact reads_uint_fixed (by simpa using hn) (by omega)
      case uint64 =>
        have hn : n < 2 ^ 64 := by simpa [fits, uintFits] using hfit
        cases hser
        exact reads_uint_fixed (by simpa using hn) hn
      case uint =>
        -- written as a big number, read back into a `uint64`
        have hn : n < 2 ^ 64 := by simpa [fits, uintFits] using hfit
        have hlen : (BigEndian.minimal n).length < 256 ^ 1 := by
          have := (BigEndian.length_minimal_le_iff n 8).mpr (by simpa using hn)
          omega
        have hbig := serializeBigInt_of_nonneg (Int.natCast_nonneg n) (by simpa using hlen)
        rw [Int.toNat_natCast] at hbig
        have hbytes : serializeBigInt (n : Int) = .ok bytes := hser
        rw [hbig] at hbytes
        cases hbytes
        have hval : BigEndian.value (BigEndian.minimal n) % 2 ^ 64 = n := by
          rw [BigEndian.value_minimal, Nat.mod_eq_of_lt hn]
        have hpure : Reads (pure (SerVal.uint (BigEndian.value (BigEndian.minimal n) % 2 ^ 64)) :
            Decoder SerVal) [] (.uint n) := by
          rw [hval]
          exact Reads.pure _
        exact (Reads.bind (Reads.getVarBytes (le_refl 1) hlen) hpure).congr (List.append_nil _)
    all_goals exact absurd hfit Bool.false_ne_true
  | .bigInt, ts, v, bytes, hfit, hser => by
    cases v
    case bigInt i =>
      have hfit' : 0 ≤ i ∧ (BigEndian.minimal i.toNat).length < 256 := by simpa [fits] using hfit
      have hbytes : serializeBigInt i = .ok bytes := hser
      rw [serializeBigInt_of_nonneg hfit'.1 hfit'.2] at hbytes
      cases hbytes
      have hval : ((BigEndian.value (BigEndian.minimal i.toNat) : Nat) : Int) = i := by
        rw [BigEndian.value_minimal]
        omega
      have hpure : Reads (pure (SerVal.bigInt (BigEndian.value (BigEndian.minimal i.toNat))) :
          Decoder SerVal) [] (.bigInt i) := by
        rw [hval]
        exact Reads.pure _
      exact (Reads.bind (Reads.getVarBytes (le_refl 1) (by simpa using hfit'.2)) hpure).congr
        (List.append_nil _)
    all_goals exact absurd hfit Bool.false_ne_true
  | .fixSizeBigUint size, ts, v, bytes, hfit, hser => by
    cases v
    case fixSizeBigUint val =>
      have hfit' : (BigEndian.minimal (val.getD 0).natAbs).length ≤ size := by simpa [fits] using hfit
      -- a nil number and a live one are both the zero-padded shortest encoding of a magnitude
      have hbytes : bytes = List.replicate (size - (BigEndian.minimal (val.getD 0).natAbs).length) 0 ++
          BigEndian.minimal (val.getD 0).natAbs := by
        cases val with
        | none =>
          cases hser
          simp [BigEndian.minimal, BigEndian.minimalAux]
        | some x =>
          have h : prefillByteArray size (BigEndian.minimal x.natAbs) = .ok bytes := hser
          simp only [Option.getD_some] at hfit' ⊢
          rw [prefillByteArray, if_neg (not_lt.mpr hfit')] at h
          exact (Except.ok.inj h).symm
      have hlen : bytes.length = size := by
        rw [hbytes, List.length_append, List.length_replicate]
        omega
      have hval : ((BigEndian.value bytes : Nat) : Int) = ((val.getD 0).natAbs : Int) := by
        rw [hbytes, BigEndian.value_replicate_zero_append, BigEndian.value_minimal]
      have hpure : Reads (pure (SerVal.fixSizeBigUint (some (BigEndian.value bytes))) :
          Decoder SerVal) [] (.fixSizeBigUint (some (val.getD 0).natAbs)) := by
        rw [hval]
        exact Reads.pure _
      have hread := Reads.getBytes bytes
      rw [hlen] at hread
      exact (Reads.bind hread hpure).congr (List.append_nil _)
    all_goals exact absurd hfit Bool.false_ne_true
  | .string, ts, v, bytes, hfit, hser => by
    cases v
    case string s =>
      have hlen : s.length < 256 ^ 4 := by simpa [fits] using hfit
      cases hser
      exact (Reads.bind (Reads.getVarBytes (by norm_num) hlen) (Reads.pure (SerVal.string s))).congr
        (List.append_nil _)
    all_goals exact absurd hfit Bool.false_ne_true
  | .byteArray len, ts, v, bytes, hfit, hser => by
    cases v
    case bytes bs =>
      have hlen : bs.length = len := by simpa [fits] using hfit
      have hb : bytes = bs := (Except.ok.inj hser).symm
      subst hb hlen
      exact (Reads.bind (Reads.getBytes bytes) (Reads.pure (SerVal.bytes bytes))).congr
        (List.append_nil _)
    all_goals exact absurd hfit Bool.false_ne_true
  | .byteSlice, ts, v, bytes, hfit, hser => by
    cases v
    case bytes bs =>
      have hfit' : 1 ≤ ts.byteSizeOfSliceLen ∧ bs.length < 256 ^ ts.byteSizeOfSliceLen := by
        simpa [fits] using hfit
      have h : serializeByteSlice bs ts = .ok bytes := hser
      rw [serializeByteSlice, writeListLen_ok hfit'.2] at h
      cases h
      exact (Reads.bind (Reads.getVarBytes hfit'.1 hfit'.2) (Reads.pure (SerVal.bytes bs))).congr
        (List.append_nil _)
    all_goals exact absurd hfit Bool.false_ne_true
  | .slice elem, ts, v, bytes, hfit, hser => by
    cases v
    case list vs =>
      have hfit' : (1 ≤ ts.byteSizeOfSliceLen ∧ vs.length < 256 ^ ts.byteSizeOfSliceLen) ∧
          ∀ v ∈ vs, fits elem {} v = true := by
        simpa [fits, List.all_eq_true] using hfit
      obtain ⟨sizeBytes, hsize, hrest⟩ := Except.bind_eq_ok.mp hser
      obtain ⟨body, hbody, hbytes⟩ := Except.bind_eq_ok.mp hrest
      cases hbytes
      rw [writeListLen_ok hfit'.1.2] at hsize
      cases hsize
      have helems := reads_deserializeElems (f := fun v => norm elem {} v)
        (fun w hw _ hb => reads_serializer elem {} w (hfit'.2 w hw) hb) hbody
      exact (Reads.bind (Reads.getLen hfit'.1.1 hfit'.1.2)
        (Reads.bind helems (Reads.pure (SerVal.list (vs.map fun v => norm elem {} v))))).congr
          (List.append_nil _ ▸ rfl)
    all_goals exact absurd hfit Bool.false_ne_true
  | .array len elem, ts, v, bytes, hfit, hser => by
    cases v
    case list vs =>
      have hfit' : vs.length = len ∧ ∀ v ∈ vs, fits elem {} v = true := by
        simpa [fits, List.all_eq_true] using hfit
      obtain ⟨sizeBytes, hsize, hrest⟩ := Except.bind_eq_ok.mp hser
      obtain ⟨body, hbody, hbytes⟩ := Except.bind_eq_ok.mp hrest
      cases hbytes
      cases hsize
      obtain ⟨rfl, hall⟩ := hfit'
      have helems := reads_deserializeElems (f := fun v => norm elem {} v)
        (fun w hw _ hb => reads_serializer elem {} w (hall w hw) hb) hbody
      exact (Reads.bind (Reads.pure vs.length)
        (Reads.bind helems (Reads.pure (SerVal.list (vs.map fun v => norm elem {} v))))).congr
          (List.append_nil _ ▸ rfl)
    all_goals exact absurd hfit Bool.false_ne_true
  | .ptr elem, ts, v, bytes, hfit, hser => by
    cases v
    case ptr target =>
      show Reads (deserializePtr (deserializer elem ts) ts) bytes (norm (.ptr elem) ts (.ptr target))
      cases hnil : ts.nilOK
      · -- no marker: a nil pointer is written, and read back, as its element's zero value
        rw [deserializePtr_of_not_nilOK hnil]
        cases target with
        | none =>
          have hzero : fits elem ts (zeroVal elem) = true := by simpa [fits, hnil] using hfit
          have hser' : serializer elem (zeroVal elem) ts = .ok bytes := by
            simpa [serializer, serializePtr, hnil] using hser
          have hnorm : norm (.ptr elem) ts (.ptr none) = .ptr (some (norm elem ts (zeroVal elem))) := by
            simp [norm, hnil]
          rw [hnorm]
          exact (Reads.bind (reads_serializer elem ts (zeroVal elem) hzero hser')
            (Reads.pure (SerVal.ptr (some (norm elem ts (zeroVal elem)))))).congr (List.append_nil _)
        | some w =>
          obtain ⟨body, hbody, hbytes⟩ := Except.bind_eq_ok.mp hser
          simp only [hnil, Bool.false_eq_true, if_false, List.nil_append] at hbytes
          cases hbytes
          exact (Reads.bind (reads_serializer elem ts w hfit hbody)
            (Reads.pure (SerVal.ptr (some (norm elem ts w))))).congr (List.append_nil _)
      · -- the marker byte: `0` for nil, `1` before a live target
        rw [deserializePtr_of_nilOK hnil]
        cases target with
        | none =>
          have hbytes : bytes = [0] := by
            simpa [serializer, serializePtr, hnil] using hser.symm
          subst hbytes
          have hnorm : norm (.ptr elem) ts (.ptr none) = .ptr none := by simp [norm, hnil]
          rw [hnorm]
          exact Reads.bind (Reads.getUInt_one 0) (Reads.pure (SerVal.ptr none))
        | some w =>
          obtain ⟨body, hbody, hbytes⟩ := Except.bind_eq_ok.mp hser
          simp only [hnil, if_true] at hbytes
          cases hbytes
          exact Reads.bind (Reads.getUInt_one 1) ((Reads.bind (reads_serializer elem ts w hfit hbody)
            (Reads.pure (SerVal.ptr (some (norm elem ts w))))).congr (List.append_nil _))
    all_goals exact absurd hfit Bool.false_ne_true
  | .struct name fields, ts, v, bytes, hfit, hser => by
    cases v
    case struct vs =>
      have hfields := reads_serializeFields name fields vs hfit hser
      exact (Reads.bind hfields (Reads.pure (SerVal.struct (normFields fields vs)))).congr
        (List.append_nil _)
    all_goals exact absurd hfit Bool.false_ne_true

/-- The fields of a struct, each under its own tags; ignored fields read back as zero. -/
theorem reads_serializeFields : ∀ (name : String) (fields : List (String × Tags × SerType))
    (vs : List SerVal) {bytes : List UInt8},
    fitsFields fields vs = true → serializeFields fields vs = .ok bytes →
      Reads (deserializeFields name fields) bytes (normFields fields vs)
  | _, [], [], bytes, _, hser => by
    cases hser
    exact Reads.pure []
  | name, (fieldName, tags, ty) :: fs, v :: vs, bytes, hfit, hser => by
    have hfit' : (tags.ignored || fits ty tags v) = true ∧ fitsFields fs vs = true := by
      simpa only [fitsFields, Bool.and_eq_true] using hfit
    rw [serializeFields] at hser
    simp only [deserializeFields, normFields]
    cases hign : tags.ignored
    · -- a kept field is decoded inside the handler that names it on error
      simp only [hign, Bool.false_eq_true, if_false] at hser ⊢
      obtain ⟨head, hhead, hrest⟩ := Except.bind_eq_ok.mp hser
      obtain ⟨tail, htail, hbytes⟩ := Except.bind_eq_ok.mp hrest
      cases hbytes
      have hv : fits ty tags v = true := by simpa [hign] using hfit'.1
      have hfs := reads_serializeFields name fs vs hfit'.2 htail
      exact (Reads.bind (Reads.tryCatch_of (reads_serializer ty tags v hv hhead))
        (Reads.bind hfs (Reads.pure (norm ty tags v :: normFields fs vs)))).congr
          (by rw [List.append_nil])
    · -- an ignored field is not written and reads as its zero value
      simp only [hign, if_true] at hser ⊢
      obtain ⟨head, hhead, hrest⟩ := Except.bind_eq_ok.mp hser
      obtain ⟨tail, htail, hbytes⟩ := Except.bind_eq_ok.mp hrest
      cases hhead
      cases hbytes
      have hfs := reads_serializeFields name fs vs hfit'.2 htail
      exact (Reads.bind (Reads.pure (zeroVal ty))
        (Reads.bind hfs (Reads.pure (zeroVal ty :: normFields fs vs)))).congr
          (by rw [List.append_nil, List.nil_append])
  | _, [], _ :: _, _, hfit, _ => absurd hfit Bool.false_ne_true
  | _, _ :: _, [], _, hfit, _ => absurd hfit Bool.false_ne_true
end

/-! ## A fitting value is written, and its normal form is written the same way -/

theorem serializeElems_map_ok {ser : SerVal → Except String (List UInt8)} {f : SerVal → SerVal} :
    ∀ {vs : List SerVal}, (∀ v ∈ vs, ∃ b, ser v = .ok b ∧ ser (f v) = .ok b) →
      ∃ b, serializeElems ser vs = .ok b ∧ serializeElems ser (vs.map f) = .ok b
  | [], _ => ⟨[], rfl, rfl⟩
  | v :: vs, hall => by
    obtain ⟨head, hv, hfv⟩ := hall v List.mem_cons_self
    obtain ⟨tail, hvs, hfvs⟩ := serializeElems_map_ok fun w hw => hall w (List.mem_cons_of_mem v hw)
    refine ⟨head ++ tail, ?_, ?_⟩
    · simp only [serializeElems, hv, hvs, Except.ok_bind]
      rfl
    · simp only [List.map_cons, serializeElems, hfv, hfvs, Except.ok_bind]
      rfl

mutual
/-- A value that fits is written without error, and its normal form gives the same bytes. -/
theorem serializer_norm_ok : ∀ (ty : SerType) (ts : Tags) (v : SerVal), fits ty ts v = true →
    ∃ bytes, serializer ty v ts = .ok bytes ∧ serializer ty (norm ty ts v) ts = .ok bytes
  | .bool, _, v, hfit => by
    cases v
    case bool b => exact ⟨_, rfl, rfl⟩
    all_goals exact absurd hfit Bool.false_ne_true
  | .uint kind, _, v, hfit => by
    cases v
    case uint n =>
      -- the normal form of a number is the number
      suffices h : ∃ bytes, serializeUint kind n = .ok bytes from
        h.elim fun bytes hb => ⟨bytes, hb, hb⟩
      cases kind
      case uint =>
        have hn : n < 2 ^ 64 := by simpa [fits, uintFits] using hfit
        have hlen : (BigEndian.minimal n).length < 256 := by
          have := (BigEndian.length_minimal_le_iff n 8).mpr (by simpa using hn)
          omega
        exact ⟨_, serializeBigInt_of_nonneg (Int.natCast_nonneg n) (by simpa using hlen)⟩
      all_goals exact ⟨_, rfl⟩
    all_goals exact absurd hfit Bool.false_ne_true
  | .bigInt, _, v, hfit => by
    cases v
    case bigInt i =>
      have hfit' : 0 ≤ i ∧ (BigEndian.minimal i.toNat).length < 256 := by simpa [fits] using hfit
      have hser := serializeBigInt_of_nonneg hfit'.1 hfit'.2
      exact ⟨_, hser, hser⟩
    all_goals exact absurd hfit Bool.false_ne_true
  | .fixSizeBigUint size, _, v, hfit => by
    cases v
    case fixSizeBigUint val =>
      have hfit' : (BigEndian.minimal (val.getD 0).natAbs).length ≤ size := by simpa [fits] using hfit
      -- both are the zero-padded shortest encoding of the magnitude
      have hpad : prefillByteArray size (BigEndian.minimal (val.getD 0).natAbs) =
          .ok (List.replicate (size - (BigEndian.minimal (val.getD 0).natAbs).length) 0 ++
            BigEndian.minimal (val.getD 0).natAbs) := by
        rw [prefillByteArray, if_neg (not_lt.mpr hfit')]
      refine ⟨List.replicate (size - (BigEndian.minimal (val.getD 0).natAbs).length) 0 ++
        BigEndian.minimal (val.getD 0).natAbs, ?_, ?_⟩
      · cases val with
        | none =>
          show Except.ok (List.replicate size 0) = _
          simp [BigEndian.minimal, BigEndian.minimalAux]
        | some x => exact hpad
      · show prefillByteArray size (BigEndian.minimal ((val.getD 0).natAbs : Int).natAbs) = _
        rw [Int.natAbs_natCast]
        exact hpad
    all_goals exact absurd hfit Bool.false_ne_true
  | .string, _, v, hfit => by
    cases v
    case string s => exact ⟨_, rfl, rfl⟩
    all_goals exact absurd hfit Bool.false_ne_true
  | .byteArray _, _, v, hfit => by
    cases v
    case bytes bs => exact ⟨_, rfl, rfl⟩
    all_goals exact absurd hfit Bool.false_ne_true
  | .byteSlice, ts, v, hfit => by
    cases v
    case bytes bs =>
      have hfit' : 1 ≤ ts.byteSizeOfSliceLen ∧ bs.length < 256 ^ ts.byteSizeOfSliceLen := by
        simpa [fits] using hfit
      have hser : serializer .byteSlice (.bytes bs) ts =
          .ok (BigEndian.fixed ts.byteSizeOfSliceLen bs.length ++ bs) := by
        show serializeByteSlice bs ts = _
        rw [serializeByteSlice, writeListLen_ok hfit'.2]
      exact ⟨_, hser, hser⟩
    all_goals exact absurd hfit Bool.false_ne_true
  | .slice elem, ts, v, hfit => by
    cases v
    case list vs =>
      have hfit' : (1 ≤ ts.byteSizeOfSliceLen ∧ vs.length < 256 ^ ts.byteSizeOfSliceLen) ∧
          ∀ v ∈ vs, fits elem {} v = true := by
        simpa [fits, List.all_eq_true] using hfit
      obtain ⟨body, hbody, hnbody⟩ := serializeElems_map_ok (f := fun v => norm elem {} v)
        fun w hw => serializer_norm_ok elem {} w (hfit'.2 w hw)
      refine ⟨BigEndian.fixed ts.byteSizeOfSliceLen vs.length ++ body, ?_, ?_⟩
      · show serializeList true _ vs ts = _
        simp only [serializeList, if_true, writeListLen_ok hfit'.1.2, hbody, Except.ok_bind]
        rfl
      · show serializeList true _ (vs.map fun v => norm elem {} v) ts = _
        simp only [serializeList, if_true, List.length_map, writeListLen_ok hfit'.1.2, hnbody,
          Except.ok_bind]
        rfl
    all_goals exact absurd hfit Bool.false_ne_true
  | .array _ elem, ts, v, hfit => by
    cases v
    case list vs =>
      have hall : ∀ v ∈ vs, fits elem {} v = true := by
        simp only [fits, Bool.and_eq_true, List.all_eq_true] at hfit
        exact hfit.2
      obtain ⟨body, hbody, hnbody⟩ := serializeElems_map_ok (f := fun v => norm elem {} v)
        fun w hw => serializer_norm_ok elem {} w (hall w hw)
      refine ⟨[] ++ body, ?_, ?_⟩
      · show serializeList false _ vs ts = _
        simp only [serializeList, Bool.false_eq_true, if_false, hbody, Except.ok_bind]
        rfl
      · show serializeList false _ (vs.map fun v => norm elem {} v) ts = _
        simp only [serializeList, Bool.false_eq_true, if_false, hnbody, Except.ok_bind]
        rfl
    all_goals exact absurd hfit Bool.false_ne_true
  | .ptr elem, ts, v, hfit => by
    cases v
    case ptr target =>
      cases hnil : ts.nilOK
      · cases target with
        | none =>
          -- the nil pointer is written as the zero value, its normal form as a pointer to it
          have hzero : fits elem ts (zeroVal elem) = true := by simpa [fits, hnil] using hfit
          obtain ⟨b, hz, hnz⟩ := serializer_norm_ok elem ts (zeroVal elem) hzero
          refine ⟨b, ?_, ?_⟩
          · simpa [serializer, serializePtr, hnil] using hz
          · simp [serializer, serializePtr, norm, hnil, hnz]
        | some w =>
          obtain ⟨b, hw, hnw⟩ := serializer_norm_ok elem ts w hfit
          refine ⟨b, ?_, ?_⟩
          · simp [serializer, serializePtr, hnil, hw]
          · simp [serializer, serializePtr, norm, hnil, hnw]
      · cases target with
        | none => exact ⟨[0], by simp [serializer, serializePtr, hnil], by
            simp [serializer, serializePtr, norm, hnil]⟩
        | some w =>
          obtain ⟨b, hw, hnw⟩ := serializer_norm_ok elem ts w hfit
          refine ⟨[1] ++ b, ?_, ?_⟩
          · simp [serializer, serializePtr, hnil, hw]
          · simp [serializer, serializePtr, norm, hnil, hnw]
    all_goals exact absurd hfit Bool.false_ne_true
  | .struct _ fields, _, v, hfit => by
    cases v
    case struct vs =>
      obtain ⟨b, hf, hnf⟩ := serializeFields_norm_ok fields vs hfit
      exact ⟨b, hf, hnf⟩
    all_goals exact absurd hfit Bool.false_ne_true

theorem serializeFields_norm_ok : ∀ (fields : List (String × Tags × SerType)) (vs : List SerVal),
    fitsFields fields vs = true →
      ∃ bytes, serializeFields fields vs = .ok bytes ∧
        serializeFields fields (normFields fields vs) = .ok bytes
  | [], [], _ => ⟨[], rfl, rfl⟩
  | (_, tags, ty) :: fs, v :: vs, hfit => by
    have hfit' : (tags.ignored || fits ty tags v) = true ∧ fitsFields fs vs = true := by
      simpa only [fitsFields, Bool.and_eq_true] using hfit
    obtain ⟨tail, hfs, hnfs⟩ := serializeFields_norm_ok fs vs hfit'.2
    cases hign : tags.ignored
    · -- a kept field is written, the same way as its normal form
      have hv : fits ty tags v = true := by simpa [hign] using hfit'.1
      obtain ⟨head, hw, hnw⟩ := serializer_norm_ok ty tags v hv
      refine ⟨head ++ tail, ?_, ?_⟩
      · simp [serializeFields, hign, hw, hfs]
      · simp [serializeFields, normFields, hign, hnw, hnfs]
    · -- an ignored field is not written, whatever it holds
      refine ⟨tail, ?_, ?_⟩
      · simp [serializeFields, hign, hfs]
      · simp [serializeFields, normFields, hign, hnfs]
  | [], _ :: _, hfit => absurd hfit Bool.false_ne_true
  | _ :: _, [], hfit => absurd hfit Bool.false_ne_true
end

/-! ## The round trip -/

/-- The bytes `Serialize` wrote for a fitting value, read from a buffer that holds
anything after them, give back the value's normal form and stop right after them. -/
theorem deserialize_of_serialize {ty : SerType} {v : SerVal} {bytes : List UInt8}
    (hfit : fits ty {} v = true) (hser : serialize ty v = .ok bytes) (rest : List UInt8) :
    deserialize (newByteBuffer (bytes ++ rest)) ty =
      .ok (norm ty {} v, ⟨bytes ++ rest, bytes.length⟩) := by
  have hread := reads_serializer ty {} v hfit hser (newByteBuffer (bytes ++ rest)) rest rfl
  simpa [deserialize, deserializeWithTags, ByteBuffer.skip, newByteBuffer] using hread

/-- `Serialize` and `Deserialize` are inverse up to the normal form: a value that fits
its type is written without error, reading those bytes back from a buffer that holds
anything after them returns the value's normal form and stops right after them, and
the normal form is written as the same bytes. -/
theorem serialize_roundtrip (ty : SerType) (v : SerVal) (hfit : fits ty {} v = true) :
    ∃ bytes, serialize ty v = .ok bytes ∧ serialize ty (norm ty {} v) = .ok bytes ∧
      ∀ rest, deserialize (newByteBuffer (bytes ++ rest)) ty =
        .ok (norm ty {} v, ⟨bytes ++ rest, bytes.length⟩) := by
  obtain ⟨bytes, hser, hnorm⟩ := serializer_norm_ok ty {} v hfit
  exact ⟨bytes, hser, hnorm, deserialize_of_serialize hfit hser⟩

/-- A `GetRootBlockHeaderListRequest` (a block hash, a limit and a direction). -/
theorem serialize_roundtrip_header_list_request :
    fits (.struct "GetRootBlockHeaderListRequest" [("BlockHash", {}, .byteArray 32),
        ("Limit", {}, .uint .uint32), ("Direction", {}, .uint .uint8)]) {}
        (.struct [.bytes (List.replicate 32 7), .uint 64, .uint 1]) = true ∧
      ∃ bytes, serialize (.struct "GetRootBlockHeaderListRequest" [("BlockHash", {}, .byteArray 32),
          ("Limit", {}, .uint .uint32), ("Direction", {}, .uint .uint8)])
          (.struct [.bytes (List.replicate 32 7), .uint 64, .uint 1]) = .ok bytes ∧
        serialize (.struct "GetRootBlockHeaderListRequest" [("BlockHash", {}, .byteArray 32),
          ("Limit", {}, .uint .uint32), ("Direction", {}, .uint .uint8)])
          (norm (.struct "GetRootBlockHeaderListRequest" [("BlockHash", {}, .byteArray 32),
            ("Limit", {}, .uint .uint32), ("Direction", {}, .uint .uint8)]) {}
            (.struct [.bytes (List.replicate 32 7), .uint 64, .uint 1])) = .ok bytes ∧
        ∀ rest, deserialize (newByteBuffer (bytes ++ rest))
            (.struct "GetRootBlockHeaderListRequest" [("BlockHash", {}, .byteArray 32),
              ("Limit", {}, .uint .uint32), ("Direction", {}, .uint .uint8)]) =
          .ok (norm (.struct "GetRootBlockHeaderListRequest" [("BlockHash", {}, .byteArray 32),
            ("Limit", {}, .uint .uint32), ("Direction", {}, .uint .uint8)]) {}
            (.struct [.bytes (List.replicate 32 7), .uint 64, .uint 1]),
            ⟨bytes ++ rest, bytes.length⟩) :=
  ⟨by decide, serialize_roundtrip _ _ (by decide)⟩

end Serialize
