import GoQuarkChain.Serialize.ByteBuffer

/-!
# The reflective codec of the `serialize` package

`makeSerializer` and `makeDeserializer` pick one function per `reflect` kind;
here the kinds are the constructors of `SerType` and a Go value of such a type
is a `SerVal`. A struct type lists its exported fields with their parsed tags,
ignored ones included, so that a value has all of them. Serializers return the
bytes they append to `w`; deserializers decode into the zero value of the
destination type, which is what `Deserialize` into a fresh variable does.
Pointers to `Uint128` and `Uint256` go through their `Serialize` methods,
`serializeFixSizeBigUint` with 16 and 32 bytes.
-/

namespace Serialize

/-- `Tags`: what the `ser` and `bytesizeofslicelen` struct tags set. -/
structure Tags where
  nilOK : Bool := false
  ignored : Bool := false
  byteSizeOfSliceLen : Nat := 1
deriving DecidableEq, Repr

/-- The unsigned `reflect` kinds `serializeUint` handles. -/
inductive UintKind where
  | uint8 | uint16 | uint32 | uint64 | uint
deriving DecidableEq, Repr

/-- The types the codec dispatches on, one constructor per case of `makeSerializer`. -/
inductive SerType where
  | bool
  | uint (kind : UintKind)
  | bigInt
  | fixSizeBigUint (size : Nat)
  | string
  | byteArray (len : Nat)
  | byteSlice
  | slice (elem : SerType)
  | array (len : Nat) (elem : SerType)
  | ptr (elem : SerType)
  | struct (name : String) (fields : List (String × Tags × SerType))
deriving Repr

/-- Go values of those types. -/
inductive SerVal where
  | bool (b : Bool)
  | uint (n : Nat)
  | bigInt (i : Int)
  | fixSizeBigUint (value : Option Int)
  | string (bytes : List UInt8)
  | bytes (bs : List UInt8)
  | list (elems : List SerVal)
  | ptr (target : Option SerVal)
  | struct (fields : List SerVal)
deriving Repr

mutual
/-- The zero value of a type, what `reflect.New` and `reflect.Zero` produce. -/
def zeroVal : SerType → SerVal
  | .bool => .bool false
  | .uint _ => .uint 0
  | .bigInt => .bigInt 0
  | .fixSizeBigUint _ => .fixSizeBigUint none
  | .string => .string []
  | .byteArray n => .bytes (List.replicate n 0)
  | .byteSlice => .bytes []
  | .slice _ => .list []
  | .array n elem => .list (List.replicate n (zeroVal elem))
  | .ptr _ => .ptr none
  | .struct _ fields => .struct (zeroFields fields)

def zeroFields : List (String × Tags × SerType) → List SerVal
  | [] => []
  | (_, _, ty) :: fs => zeroVal ty :: zeroFields fs
end

def errNegativeBigInt : String := "ser: cannot serialize negative *big.Int"

def errListLen : String := "barray len is larger then expected size"

def errTypeMismatch : String := "ser: value does not have the serialized type"

/-- `serializeBigInt`: one length byte, truncated to `uint8`, then the magnitude. -/
def serializeBigInt (i : Int) : Except String (List UInt8) :=
  if i < 0 then .error errNegativeBigInt
  else
    let bytes := if 0 < i then BigEndian.minimal i.toNat else []
    .ok (UInt8.ofNat bytes.length :: bytes)

/-- `prefillByteArray`: left-pad with zero bytes to `size`. -/
def prefillByteArray (size : Nat) (barray : List UInt8) : Except String (List UInt8) :=
  if barray.length > size then .error errListLen
  else .ok (List.replicate (size - barray.length) 0 ++ barray)

/-- `serializeFixSizeBigUint`; `big.Int.Bytes` is the magnitude, sign dropped. -/
def serializeFixSizeBigUint (val : Option Int) (size : Nat) : Except String (List UInt8) :=
  match val with
  | none => .ok (List.replicate size 0)
  | some v => prefillByteArray size (BigEndian.minimal v.natAbs)

def serializeBool (b : Bool) : List UInt8 := if b then [1] else [0]

/-- `serializeUint`: big-endian by kind, and `uint` through `serializeBigInt`. -/
def serializeUint (kind : UintKind) (value : Nat) : Except String (List UInt8) :=
  match kind with
  | .uint8 => .ok [UInt8.ofNat value]
  | .uint16 => .ok (BigEndian.fixed 2 value)
  | .uint32 => .ok (BigEndian.fixed 4 value)
  | .uint64 => .ok (BigEndian.fixed 8 value)
  | .uint => serializeBigInt value

/-- `serializeString`: a four-byte length, `uint32(val.Len())`, then the bytes. -/
def serializeString (s : List UInt8) : List UInt8 := BigEndian.fixed 4 s.length ++ s

/-- `serializeByteSlice`. An over-long slice makes `writeListLen` fail, and that
error is dropped: nothing is written and the result is success. -/
def serializeByteSlice (bs : List UInt8) (ts : Tags) : Except String (List UInt8) :=
  match writeListLen bs.length ts.byteSizeOfSliceLen with
  | .error _ => .ok []
  | .ok sizeBytes => .ok (sizeBytes ++ bs)

/-- The element loop of `serializeList`. -/
def serializeElems (ser : SerVal → Except String (List UInt8)) :
    List SerVal → Except String (List UInt8)
  | [] => .ok []
  | v :: vs => do
    let head ← ser v
    let tail ← serializeElems ser vs
    return head ++ tail

/-- `serializeList`: a length prefix for slices only, then each element with
`Tags{ByteSizeOfSliceLen: 1}`. -/
def serializeList (isSlice : Bool) (ser : SerVal → Except String (List UInt8))
    (vs : List SerVal) (ts : Tags) : Except String (List UInt8) := do
  let sizeBytes ← if isSlice then writeListLen vs.length ts.byteSizeOfSliceLen else pure []
  let body ← serializeElems ser vs
  return sizeBytes ++ body

/-- `serializePtr`, given the element serializer: a nil pointer is either the
`nil` marker or the element's zero value; a live one may get the marker `1`. -/
def serializePtr (ser : SerVal → Tags → Except String (List UInt8)) (zero : SerVal)
    (target : Option SerVal) (ts : Tags) : Except String (List UInt8) :=
  match target with
  | none => if ts.nilOK then .ok [0] else ser zero ts
  | some v => do
    let body ← ser v ts
    return (if ts.nilOK then [1] else []) ++ body

mutual
/-- `typeinfo.serializer` for every type. -/
def serializer : SerType → SerVal → Tags → Except String (List UInt8)
  | .bool, .bool b, _ => .ok (serializeBool b)
  | .uint kind, .uint n, _ => serializeUint kind n
  | .bigInt, .bigInt i, _ => serializeBigInt i
  | .fixSizeBigUint size, .fixSizeBigUint v, _ => serializeFixSizeBigUint v size
  | .string, .string s, _ => .ok (serializeString s)
  | .byteArray _, .bytes bs, _ => .ok bs
  | .byteSlice, .bytes bs, ts => serializeByteSlice bs ts
  | .slice elem, .list vs, ts => serializeList true (fun v => serializer elem v {}) vs ts
  | .array _ elem, .list vs, ts => serializeList false (fun v => serializer elem v {}) vs ts
  | .ptr elem, .ptr target, ts => serializePtr (serializer elem) (zeroVal elem) target ts
  | .struct _ fields, .struct vs, _ => serializeFields fields vs
  | _, _, _ => .error errTypeMismatch

/-- `serializeStruct`: the fields `structFields` keeps, each with its own tags. -/
def serializeFields : List (String × Tags × SerType) → List SerVal → Except String (List UInt8)
  | [], [] => .ok []
  | (_, tags, ty) :: fs, v :: vs => do
    let head ← if tags.ignored then pure [] else serializer ty v tags
    let tail ← serializeFields fs vs
    return head ++ tail
  | _, _ => .error errTypeMismatch
end

/-- `SerializeWithTags`. -/
def serializeWithTags (ty : SerType) (v : SerVal) (ts : Tags) : Except String (List UInt8) :=
  serializer ty v ts

/-- `Serialize`: the default tags, a one-byte length prefix. -/
def serialize (ty : SerType) (v : SerVal) : Except String (List UInt8) :=
  serializeWithTags ty v {}

/-! ## Decoding -/

def deserializeBool : Decoder SerVal := do
  let b ← getBytes 1
  match b with
  | [0] => return .bool false
  | [1] => return .bool true
  | b => throw s!"deser: invalid boolean value: {b.headD 0}"

/-- `deserializeUint`: fixed widths read `Bits()/8` bytes, `uint` a length-prefixed
string folded into a `uint64`, so modulo `2 ^ 64`. -/
def deserializeUint (kind : UintKind) : Decoder SerVal := do
  let bytes ← match kind with
    | .uint8 => getBytes 1
    | .uint16 => getBytes 2
    | .uint32 => getBytes 4
    | .uint64 => getBytes 8
    | .uint => getVarBytes 1
  return .uint (BigEndian.value bytes % 2 ^ 64)

/-- `deserializeBigInt`: `SetBytes` of a length-prefixed byte string. -/
def deserializeBigInt : Decoder SerVal := do
  let bytes ← getVarBytes 1
  return .bigInt (BigEndian.value bytes)

/-- `Uint128.Deserialize` and `Uint256.Deserialize`. -/
def deserializeFixSizeBigUint (size : Nat) : Decoder SerVal := do
  let bytes ← getBytes size
  return .fixSizeBigUint (some (BigEndian.value bytes))

def deserializeString : Decoder SerVal := do
  let b ← getVarBytes 4
  return .string b

def deserializeByteArray (len : Nat) : Decoder SerVal := do
  let bytes ← getBytes len
  return .bytes bytes

def deserializeByteSlice (ts : Tags) : Decoder SerVal := do
  let bytes ← getVarBytes ts.byteSizeOfSliceLen
  return .bytes bytes

/-- The element loop of `deserializeList`. -/
def deserializeElems (de : Decoder SerVal) : Nat → Decoder (List SerVal)
  | 0 => pure []
  | n + 1 => do
    let head ← de
    let tail ← deserializeElems de n
    return head :: tail

/-- `deserializeList`: a slice reads its length prefix, an array has its own. -/
def deserializeList (isSlice : Bool) (arrayLen : Nat) (de : Decoder SerVal) (ts : Tags) :
    Decoder SerVal := do
  let vlen ← if isSlice then getLen ts.byteSizeOfSliceLen else pure arrayLen
  let elems ← deserializeElems de vlen
  return .list elems

/-- `deserializePtr`: with `nil` tags a zero marker decodes to a nil pointer. -/
def deserializePtr (de : Decoder SerVal) (ts : Tags) : Decoder SerVal := do
  if ts.nilOK then
    let b ← getUInt 1
    if b = 0 then return .ptr none
  let v ← de
  return .ptr (some v)

/-- The error `deserializeStruct` reports for a field. -/
def fieldError (typeName fieldName err : String) : String :=
  s!"{err} for {typeName}.{fieldName}"

mutual
/-- `typeinfo.deserializer` for every type, into a zero destination. -/
def deserializer : SerType → Tags → Decoder SerVal
  | .bool, _ => deserializeBool
  | .uint kind, _ => deserializeUint kind
  | .bigInt, _ => deserializeBigInt
  | .fixSizeBigUint size, _ => deserializeFixSizeBigUint size
  | .string, _ => deserializeString
  | .byteArray len, _ => deserializeByteArray len
  | .byteSlice, ts => deserializeByteSlice ts
  | .slice elem, ts => deserializeList true 0 (deserializer elem {}) ts
  | .array len elem, ts => deserializeList false len (deserializer elem {}) ts
  | .ptr elem, ts => deserializePtr (deserializer elem ts) ts
  | .struct name fields, _ => do
    let vs ← deserializeFields name fields
    return .struct vs

/-- `deserializeStruct`: kept fields are decoded, ignored ones stay zero. -/
def deserializeFields (typeName : String) :
    List (String × Tags × SerType) → Decoder (List SerVal)
  | [] => pure []
  | (fieldName, tags, ty) :: fs => do
    let head ← if tags.ignored then pure (zeroVal ty)
      else tryCatch (deserializer ty tags) (fun err => throw (fieldError typeName fieldName err))
    let tail ← deserializeFields typeName fs
    return head :: tail
end

/-- `DeserializeWithTags` into a fresh variable of the type. -/
def deserializeWithTags (bb : ByteBuffer) (ty : SerType) (ts : Tags) :
    Except String (SerVal × ByteBuffer) :=
  (deserializer ty ts).run bb

/-- `Deserialize`: the default tags. -/
def deserialize (bb : ByteBuffer) (ty : SerType) : Except String (SerVal × ByteBuffer) :=
  deserializeWithTags bb ty {}

/-- `SerializeToBytes`: `Serialize` into a fresh buffer. -/
def serializeToBytes (ty : SerType) (v : SerVal) : Except String (List UInt8) :=
  serialize ty v

/-- `DeserializeFromBytes`: `Deserialize` from a fresh buffer over the bytes; bytes
left after the value are not an error. -/
def deserializeFromBytes (b : List UInt8) (ty : SerType) : Except String (SerVal × ByteBuffer) :=
  deserialize (newByteBuffer b) ty

/-- A 256-byte slice under the default one-byte length prefix: `Serialize`
reports success having written nothing, and decoding that output fails. -/
theorem serialize_long_byteSlice_unreadable :
    serialize .byteSlice (.bytes (List.replicate 256 0)) = .ok [] ∧
      deserialize (newByteBuffer []) .byteSlice = .error errShortBuffer := by
  have hlen : writeListLen (List.replicate 256 (0 : UInt8)).length 1 =
      .error "barray len is larger then expected size" := by
    rw [List.length_replicate]
    exact writeListLen_error (by decide)
  constructor
  · simp only [serialize, serializeWithTags, serializer, serializeByteSlice, hlen]
  · rfl

end Serialize
