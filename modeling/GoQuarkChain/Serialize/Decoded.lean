import GoQuarkChain.Serialize.RoundTrip
import GoQuarkChain.Lib.Yields

/-!
# What the decoder returns

Whatever bytes it is given, a value that `Deserialize` returns fits its type and is
its own normal form: every number and length it reads is bounded by the bytes it was
read from, a pointer without the `nil` tag always points somewhere, and an ignored
field holds its zero value (`deserialize_fits_norm`). With the round trip of
`serialize_roundtrip` this makes decoding a retraction of encoding: a decoded value is
written without error, and reading what was written gives the same value back
(`deserialize_reencode`). The bytes written need not be the bytes read: a big number
read with leading zero bytes is written without them.

The proof follows the decoder one combinator at a time with the rules of `Yields`,
one case per constructor of `SerType`.
-/

namespace Serialize

/-! ## The reads of the buffer -/

theorem yields_getBytes (n : Nat) : Yields (getBytes n) (fun bs => bs.length = n) := by
  intro bb bs bb' hrun
  change getBytes n bb = _ at hrun
  unfold getBytes at hrun
  split at hrun
  · cases hrun
  · rename_i hlen
    cases hrun
    simp only [List.length_take, List.length_drop]
    omega

theorem yields_getLen (k : Nat) : Yields (getLen k) (fun n => 1 ≤ k ∧ n < 256 ^ k) := by
  unfold getLen
  dsimp only
  split
  · exact Yields.bind (Q := fun _ => False) (Yields.throw _) fun _ h => h.elim
  · rename_i hk
    refine Yields.bind (yields_getBytes k) fun b hb => Yields.pure ⟨by omega, ?_⟩
    simpa [hb] using BigEndian.value_lt b

theorem yields_getVarBytes (k : Nat) :
    Yields (getVarBytes k) (fun bs => 1 ≤ k ∧ bs.length < 256 ^ k) :=
  Yields.bind (yields_getLen k) fun n hn =>
    (yields_getBytes n).mono fun _ hbs => ⟨hn.1, hbs ▸ hn.2⟩

/-- The element loop returns as many elements as it was asked for, each from `de`. -/
theorem yields_deserializeElems {de : Decoder SerVal} {P : SerVal → Prop} (hde : Yields de P) :
    ∀ n, Yields (deserializeElems de n) (fun vs => vs.length = n ∧ ∀ v ∈ vs, P v)
  | 0 => Yields.pure (by simp)
  | n + 1 =>
    Yields.bind hde fun v hv =>
      Yields.bind (yields_deserializeElems hde n) fun vs hvs =>
        Yields.pure ⟨by simp [hvs.1], by simpa [hv] using hvs.2⟩

/-- A slice's length prefix bounds its element count; an array has its own. -/
theorem yields_deserializeList {isSlice : Bool} {arrayLen : Nat} {de : Decoder SerVal}
    {ts : Tags} {P : SerVal → Prop} (hde : Yields de P) :
    Yields (deserializeList isSlice arrayLen de ts) (fun v => ∃ vs, v = .list vs ∧
      (if isSlice then 1 ≤ ts.byteSizeOfSliceLen ∧ vs.length < 256 ^ ts.byteSizeOfSliceLen
        else vs.length = arrayLen) ∧ ∀ w ∈ vs, P w) := by
  unfold deserializeList
  dsimp only
  -- the element loop, after whichever length the list has
  have helems : ∀ n, Yields (do let elems ← deserializeElems de n; pure (SerVal.list elems))
      (fun v => ∃ vs, v = .list vs ∧ vs.length = n ∧ ∀ w ∈ vs, P w) := fun n =>
    Yields.bind (yields_deserializeElems hde n) fun vs hvs => Yields.pure ⟨vs, rfl, hvs⟩
  cases isSlice
  · refine Yields.bind (Yields.pure rfl) fun n hn => (helems n).mono ?_
    rintro v ⟨vs, rfl, hlen, hvs⟩
    exact ⟨vs, rfl, by simp [hlen, hn], hvs⟩
  · refine Yields.bind (yields_getLen _) fun n hn => (helems n).mono ?_
    rintro v ⟨vs, rfl, hlen, hvs⟩
    exact ⟨vs, rfl, by simp [hlen, hn], hvs⟩

/-! ## Every decoded value fits and is its own normal form -/

/-- A value the codec writes, and reads back unchanged. -/
def Normal (ty : SerType) (ts : Tags) (v : SerVal) : Prop :=
  fits ty ts v = true ∧ norm ty ts v = v

/-- The fields of a struct, each under its own tags. -/
def NormalFields (fields : List (String × Tags × SerType)) (vs : List SerVal) : Prop :=
  fitsFields fields vs = true ∧ normFields fields vs = vs

/-- Elements that are their own normal form are left as they are by the map of `norm`. -/
theorem map_norm_of_normal {elem : SerType} {vs : List SerVal} (h : ∀ w ∈ vs, Normal elem {} w) :
    vs.map (norm elem {}) = vs := by
  conv_rhs => rw [← List.map_id vs]
  exact List.map_congr_left fun w hw => (h w hw).2

mutual
/-- Whatever it is given, the decoder of a type returns a value that fits the type and is
its own normal form. -/
theorem yields_deserializer : ∀ (ty : SerType) (ts : Tags),
    Yields (deserializer ty ts) (Normal ty ts)
  | .bool, ts => by
    refine Yields.bind (yields_getBytes 1) fun b _ => ?_
    split
    · exact Yields.pure ⟨rfl, rfl⟩
    · exact Yields.pure ⟨rfl, rfl⟩
    · exact Yields.throw _
  | .uint kind, ts => by
    cases kind
    case uint =>
      -- a big number read back into a `uint64`
      refine Yields.bind (yields_getVarBytes 1) fun bs _ => Yields.pure ⟨?_, rfl⟩
      simpa [fits, uintFits] using Nat.mod_lt (BigEndian.value bs) (by norm_num : 0 < 2 ^ 64)
    all_goals
      refine Yields.bind (yields_getBytes _) fun bs hbs => Yields.pure ⟨?_, rfl⟩
      have hlt := BigEndian.value_lt bs
      rw [hbs] at hlt
      simp only [fits, uintFits, decide_eq_true_eq]
      omega
  | .bigInt, ts => by
    refine Yields.bind (yields_getVarBytes 1) fun bs hbs => Yields.pure ⟨?_, rfl⟩
    have hlen := (BigEndian.length_minimal_le_iff (BigEndian.value bs) bs.length).mpr
      (BigEndian.value_lt bs)
    simp only [fits, Int.natCast_nonneg, Int.toNat_natCast, true_and, decide_eq_true_eq]
    simp only [pow_one] at hbs
    omega
  | .fixSizeBigUint size, ts => by
    refine Yields.bind (yields_getBytes size) fun bs hbs => Yields.pure ⟨?_, ?_⟩
    · have hlt := BigEndian.value_lt bs
      rw [hbs] at hlt
      simpa [fits] using (BigEndian.length_minimal_le_iff _ _).mpr hlt
    · simp [Serialize.norm]
  | .string, ts =>
    Yields.bind (yields_getVarBytes 4) fun _ hbs => Yields.pure ⟨by simpa [fits] using hbs.2, rfl⟩
  | .byteArray len, ts =>
    Yields.bind (yields_getBytes len) fun _ hbs => Yields.pure ⟨by simpa [fits] using hbs, rfl⟩
  | .byteSlice, ts =>
    Yields.bind (yields_getVarBytes _) fun _ hbs => Yields.pure ⟨by simpa [fits] using hbs, rfl⟩
  | .slice elem, ts => by
    refine (yields_deserializeList (yields_deserializer elem {})).mono ?_
    rintro v ⟨vs, rfl, hlen, hvs⟩
    simp only [if_true] at hlen
    refine ⟨?_, by simp [Serialize.norm, map_norm_of_normal hvs]⟩
    simpa [fits, hlen] using fun w hw => (hvs w hw).1
  | .array len elem, ts => by
    refine (yields_deserializeList (yields_deserializer elem {})).mono ?_
    rintro v ⟨vs, rfl, hlen, hvs⟩
    simp only [Bool.false_eq_true, if_false] at hlen
    refine ⟨?_, by simp [Serialize.norm, map_norm_of_normal hvs]⟩
    simpa [fits, hlen] using fun w hw => (hvs w hw).1
  | .ptr elem, ts => by
    show Yields (deserializePtr (deserializer elem ts) ts) _
    -- the element itself, behind a pointer
    have hsome : Yields (do let v ← deserializer elem ts; pure (SerVal.ptr (some v)))
        (Normal (.ptr elem) ts) :=
      Yields.bind (yields_deserializer elem ts) fun w hw =>
        Yields.pure ⟨hw.1, by simp [Serialize.norm, hw.2]⟩
    cases hnil : ts.nilOK
    · rw [deserializePtr_of_not_nilOK hnil]
      exact hsome
    · rw [deserializePtr_of_nilOK hnil]
      refine Yields.bind (Q := fun _ => True) (fun _ _ _ _ => trivial) fun b _ => ?_
      exact Yields.ite (fun _ => Yields.pure ⟨by simp [fits, hnil], by simp [Serialize.norm, hnil]⟩)
        (fun _ => hsome)
  | .struct name fields, ts =>
    Yields.bind (yields_deserializeFields name fields) fun _ hvs =>
      Yields.pure ⟨hvs.1, by simp [Serialize.norm, hvs.2]⟩

/-- The fields: a kept one as its decoder returns it, an ignored one as its zero value. -/
theorem yields_deserializeFields : ∀ (name : String) (fields : List (String × Tags × SerType)),
    Yields (deserializeFields name fields) (NormalFields fields)
  | name, [] => Yields.pure ⟨rfl, rfl⟩
  | name, (fieldName, tags, ty) :: fs => by
    rw [deserializeFields]
    cases hign : tags.ignored
    · -- a kept field: its decoder's error is renamed, its value kept
      simp only [Bool.false_eq_true, if_false]
      refine Yields.bind (Yields.tryCatch (yields_deserializer ty tags) fun _ => Yields.throw _)
        fun head hhead => ?_
      refine Yields.bind (yields_deserializeFields name fs) fun tail htail => Yields.pure ⟨?_, ?_⟩
      · simp [fitsFields, hign, hhead.1, htail.1]
      · simp [normFields, hign, hhead.2, htail.2]
    · simp only [if_true]
      refine Yields.bind (Q := fun head => head = zeroVal ty) (Yields.pure rfl) fun head hhead => ?_
      refine Yields.bind (yields_deserializeFields name fs) fun tail htail => Yields.pure ⟨?_, ?_⟩
      · simp [fitsFields, hign, htail.1]
      · simp [normFields, hign, hhead, htail.2]
end

/-! ## Decoding is a retraction of encoding -/

/-- Every value `Deserialize` returns fits its type and is its own normal form. -/
theorem deserialize_normal {bb bb' : ByteBuffer} {ty : SerType} {v : SerVal}
    (h : deserialize bb ty = .ok (v, bb')) : Normal ty {} v :=
  yields_deserializer ty {} bb v bb' h

/-- A value that `Deserialize` returns is written by `Serialize` without error, and reading
what was written, from a buffer that holds anything after it, gives the same value and
stops right after it. -/
theorem deserialize_reencode {bb bb' : ByteBuffer} {ty : SerType} {v : SerVal}
    (h : deserialize bb ty = .ok (v, bb')) :
    ∃ bytes, serialize ty v = .ok bytes ∧
      ∀ rest, deserialize (newByteBuffer (bytes ++ rest)) ty =
        .ok (v, ⟨bytes ++ rest, bytes.length⟩) := by
  obtain ⟨hfit, hnorm⟩ := deserialize_normal h
  obtain ⟨bytes, hser, -⟩ := serializer_norm_ok ty {} v hfit
  refine ⟨bytes, hser, fun rest => ?_⟩
  have hread := deserialize_of_serialize hfit hser rest
  rwa [hnorm] at hread

/-- The big number `5` read with a leading zero byte is written back without it, and
that is read as `5` again. -/
theorem deserialize_reencode_leading_zero :
    deserialize (newByteBuffer [2, 0, 5]) .bigInt = .ok (.bigInt 5, ⟨[2, 0, 5], 3⟩) ∧
      ∃ bytes, serialize .bigInt (.bigInt 5) = .ok bytes ∧
        ∀ rest, deserialize (newByteBuffer (bytes ++ rest)) .bigInt =
          .ok (.bigInt 5, ⟨bytes ++ rest, bytes.length⟩) := by
  have hread : deserialize (newByteBuffer [2, 0, 5]) .bigInt = .ok (.bigInt 5, ⟨[2, 0, 5], 3⟩) :=
    rfl
  exact ⟨hread, deserialize_reencode hread⟩

/-! ## The shape of a decoded value -/

theorem Normal.uint {kind : UintKind} {ts : Tags} {v : SerVal} (h : Normal (.uint kind) ts v) :
    ∃ n, v = .uint n := by
  cases v
  case uint n => exact ⟨n, rfl⟩
  all_goals exact absurd h.1 Bool.false_ne_true

theorem Normal.byteArray {len : Nat} {ts : Tags} {v : SerVal} (h : Normal (.byteArray len) ts v) :
    ∃ bs, v = .bytes bs := by
  cases v
  case bytes bs => exact ⟨bs, rfl⟩
  all_goals exact absurd h.1 Bool.false_ne_true

/-- A decoded pointer without the `nil` tag is never nil: the zero marker is only read
under that tag. -/
theorem Normal.ptr_some {elem : SerType} {ts : Tags} {v : SerVal} (hnil : ts.nilOK = false)
    (h : Normal (.ptr elem) ts v) : ∃ w, v = .ptr (some w) := by
  cases v
  case ptr target =>
    cases target with
    | none =>
      have hnorm := h.2
      simp [Serialize.norm, hnil] at hnorm
    | some w => exact ⟨w, rfl⟩
  all_goals exact absurd h.1 Bool.false_ne_true

theorem Normal.struct {name : String} {fields : List (String × Tags × SerType)} {ts : Tags}
    {v : SerVal} (h : Normal (.struct name fields) ts v) :
    ∃ vs, v = .struct vs ∧ NormalFields fields vs := by
  cases v
  case struct vs =>
    have hnorm := h.2
    simp only [Serialize.norm, SerVal.struct.injEq] at hnorm
    exact ⟨vs, rfl, h.1, hnorm⟩
  all_goals exact absurd h.1 Bool.false_ne_true

theorem NormalFields.nil {vs : List SerVal} (h : NormalFields [] vs) : vs = [] := by
  cases vs with
  | nil => rfl
  | cons v vs => exact absurd h.1 Bool.false_ne_true

theorem NormalFields.cons {fieldName : String} {tags : Tags} {ty : SerType}
    {fs : List (String × Tags × SerType)} {vs : List SerVal} (hign : tags.ignored = false)
    (h : NormalFields ((fieldName, tags, ty) :: fs) vs) :
    ∃ v vs', vs = v :: vs' ∧ Normal ty tags v ∧ NormalFields fs vs' := by
  cases vs with
  | nil => exact absurd h.1 Bool.false_ne_true
  | cons v vs' =>
    obtain ⟨hfit, hnorm⟩ := h
    simp only [fitsFields, hign, Bool.false_or, Bool.and_eq_true] at hfit
    simp only [normFields, hign, Bool.false_eq_true, if_false, List.cons.injEq] at hnorm
    exact ⟨v, vs', rfl, ⟨hfit.1, hnorm.1⟩, hfit.2, hnorm.2⟩

/-! ## The errors of a struct -/

/-- A struct that fails to decode names the field it failed on. -/
theorem fails_deserializeFields (name : String) : ∀ fields : List (String × Tags × SerType),
    Fails (deserializeFields name fields) (fun e => ∃ f ∈ fields, ∃ err, e = fieldError name f.1 err)
  | [] => Fails.pure
  | (fieldName, tags, ty) :: fs => by
    rw [deserializeFields]
    have hrest : Fails (deserializeFields name fs)
        (fun e => ∃ f ∈ (fieldName, tags, ty) :: fs, ∃ err, e = fieldError name f.1 err) :=
      (fails_deserializeFields name fs).mono fun e ⟨f, hf, herr⟩ =>
        ⟨f, List.mem_cons_of_mem _ hf, herr⟩
    cases tags.ignored
    · simp only [Bool.false_eq_true, if_false]
      refine Fails.bind (Fails.tryCatch fun err => Fails.throw ⟨_, List.mem_cons_self, err, rfl⟩)
        fun _ => Fails.bind hrest fun _ => Fails.pure
    · simp only [if_true]
      exact Fails.bind Fails.pure fun _ => Fails.bind hrest fun _ => Fails.pure

theorem fails_deserializer_struct (name : String) (fields : List (String × Tags × SerType))
    (ts : Tags) :
    Fails (deserializer (.struct name fields) ts)
      (fun e => ∃ f ∈ fields, ∃ err, e = fieldError name f.1 err) :=
  Fails.bind (fails_deserializeFields name fields) fun _ => Fails.pure

end Serialize
