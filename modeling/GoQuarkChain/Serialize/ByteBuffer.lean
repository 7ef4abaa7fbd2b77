import GoQuarkChain.Lib.BigEndian

/-!
# The byte buffer of the `serialize` package

`ByteBuffer` is a byte slice with a read position; every read either returns
the next bytes and advances, or fails with the package's error text and leaves
the rest of decoding undone. Decoding is written in `StateT ByteBuffer (Except
String)`, the shape of a Go method that mutates the buffer and returns an error.
The length prefixes of `writeListLen` and `getLen` are fixed-width big-endian
numbers; lengths are natural numbers here, where the source uses `int`.
-/

namespace Serialize

structure ByteBuffer where
  data : List UInt8
  position : Nat
deriving DecidableEq, Repr

/-- `NewByteBuffer`: a buffer positioned at its first byte. -/
def newByteBuffer (bytes : List UInt8) : ByteBuffer := ⟨bytes, 0⟩

/-- The bytes not yet read. -/
def ByteBuffer.rest (bb : ByteBuffer) : List UInt8 := bb.data.drop bb.position

/-- `Remaining`: the number of bytes not yet read. -/
def ByteBuffer.remaining (bb : ByteBuffer) : Nat := bb.data.length - bb.position

/-- The buffer after `n` more bytes were read. -/
def ByteBuffer.skip (bb : ByteBuffer) (n : Nat) : ByteBuffer :=
  { bb with position := bb.position + n }

/-- Reads of the package: a method that mutates the buffer or fails. -/
abbrev Decoder (α : Type) := StateT ByteBuffer (Except String) α

def errShortBuffer : String := "deser: buffer is shorter than expected"

def errByteSize : String := "deser: bytesize in GetVarBytes should larger than 0"

/-- `ByteBuffer.getBytes`. -/
def getBytes (size : Nat) : Decoder (List UInt8) := fun bb =>
  if size > bb.data.length - bb.position then .error errShortBuffer
  else .ok ((bb.data.drop bb.position).take size, bb.skip size)

/-- `GetUInt8`, `GetUInt16`, `GetUInt32`, `GetUInt64`: `width` bytes read big-endian. -/
def getUInt (width : Nat) : Decoder Nat := do
  let bytes ← getBytes width
  return BigEndian.value bytes

/-- `ByteBuffer.getLen`: a length prefix of `byteSize` bytes. -/
def getLen (byteSize : Nat) : Decoder Nat := do
  if byteSize < 1 then throw errByteSize
  let b ← getBytes byteSize
  return BigEndian.value b

/-- `ByteBuffer.GetVarBytes`: a length prefix, then that many bytes. -/
def getVarBytes (byteSizeOfSliceLen : Nat) : Decoder (List UInt8) := do
  let size ← getLen byteSizeOfSliceLen
  getBytes size

/-- `writeListLen`: the length in `byteSizeOfSliceLen` big-endian bytes. The
source shifts `len` right one byte per position written and fails when some of
it is left over, that is when `len >>> (8 * byteSizeOfSliceLen)` is not zero. -/
def writeListLen (len byteSizeOfSliceLen : Nat) : Except String (List UInt8) :=
  if len >>> (8 * byteSizeOfSliceLen) > 0 then .error "barray len is larger then expected size"
  else .ok (BigEndian.fixed byteSizeOfSliceLen len)

@[simp] theorem rest_skip (bb : ByteBuffer) (n : Nat) :
    (bb.skip n).rest = bb.rest.drop n := by
  simp [ByteBuffer.rest, ByteBuffer.skip, List.drop_drop, Nat.add_comm]

@[simp] theorem skip_skip (bb : ByteBuffer) (m n : Nat) :
    (bb.skip m).skip n = bb.skip (m + n) := by
  simp [ByteBuffer.skip, Nat.add_assoc]

@[simp] theorem skip_zero (bb : ByteBuffer) : bb.skip 0 = bb := rfl

theorem getBytes_of_rest {bb : ByteBuffer} {bs rest : List UInt8}
    (h : bb.rest = bs ++ rest) :
    (getBytes bs.length).run bb = .ok (bs, bb.skip bs.length) := by
  have hlen : bs.length ≤ bb.data.length - bb.position := by
    have := congrArg List.length h
    simp only [ByteBuffer.rest, List.length_drop, List.length_append] at this
    omega
  simp only [StateT.run, getBytes, gt_iff_lt, not_lt.mpr hlen, if_false]
  have htake : (bb.data.drop bb.position).take bs.length = bs := by
    change bb.rest.take bs.length = bs
    rw [h, List.take_left]
  rw [htake]

theorem writeListLen_ok {len k : Nat} (h : len < 256 ^ k) :
    writeListLen len k = .ok (BigEndian.fixed k len) := by
  have hshift : len >>> (8 * k) = 0 := by
    rw [Nat.shiftRight_eq_div_pow, Nat.div_eq_of_lt]
    rwa [pow_mul]
  simp [writeListLen, hshift]

theorem writeListLen_error {len k : Nat} (h : 256 ^ k ≤ len) :
    writeListLen len k = .error "barray len is larger then expected size" := by
  have hshift : 0 < len >>> (8 * k) := by
    rw [Nat.shiftRight_eq_div_pow, pow_mul]
    exact Nat.div_pos h (by positivity)
  simp [writeListLen, hshift]

theorem getLen_of_rest {bb : ByteBuffer} {k len : Nat} {rest : List UInt8}
    (hk : 1 ≤ k) (hlen : len < 256 ^ k) (h : bb.rest = BigEndian.fixed k len ++ rest) :
    (getLen k).run bb = .ok (len, bb.skip k) := by
  have hbytes := getBytes_of_rest h
  rw [BigEndian.length_fixed] at hbytes
  simp only [StateT.run] at hbytes
  simp [getLen, StateT.run, not_lt.mpr hk, bind, StateT.bind, hbytes, pure, StateT.pure,
    Except.pure, Except.bind, BigEndian.value_fixed_of_lt hlen]

theorem getVarBytes_of_rest {bb : ByteBuffer} {k : Nat} {bs rest : List UInt8}
    (hk : 1 ≤ k) (hlen : bs.length < 256 ^ k)
    (h : bb.rest = BigEndian.fixed k bs.length ++ bs ++ rest) :
    (getVarBytes k).run bb = .ok (bs, bb.skip (k + bs.length)) := by
  have hlenRead := getLen_of_rest hk hlen (by rw [h, List.append_assoc])
  have hafter : (bb.skip k).rest = bs ++ rest := by
    rw [rest_skip, h, List.append_assoc, List.drop_left' (BigEndian.length_fixed _ _)]
  have hbytes := getBytes_of_rest hafter
  simp only [StateT.run] at hlenRead hbytes
  simp [getVarBytes, StateT.run, bind, StateT.bind, hlenRead, Except.bind, hbytes]

/-! ## Decoders that read a known prefix

`Reads de bytes w`: run on any buffer whose unread part starts with `bytes`, `de`
returns `w` and stops right after them. Decoders built with `bind` read the
concatenation of what their parts read, which is how a codec's round trip is
assembled from the round trips of its fields. -/

section Reads

variable {α β : Type}

def Reads (de : Decoder α) (bytes : List UInt8) (w : α) : Prop :=
  ∀ bb rest, bb.rest = bytes ++ rest → de.run bb = .ok (w, bb.skip bytes.length)

theorem Reads.pure (a : α) : Reads (pure a : Decoder α) [] a := by
  intro bb rest _
  rfl

theorem Reads.bind {x : Decoder α} {f : α → Decoder β} {b₁ b₂ : List UInt8} {a : α} {c : β}
    (hx : Reads x b₁ a) (hf : Reads (f a) b₂ c) : Reads (x >>= f) (b₁ ++ b₂) c := by
  intro bb rest hrest
  have hfirst := hx bb (b₂ ++ rest) (by rw [hrest, List.append_assoc])
  have hafter : (bb.skip b₁.length).rest = b₂ ++ rest := by
    rw [rest_skip, hrest, List.append_assoc, List.drop_left]
  have hsecond := hf (bb.skip b₁.length) rest hafter
  rw [skip_skip, ← List.length_append] at hsecond
  rw [StateT.run_bind, hfirst]
  exact hsecond

theorem Reads.congr {de : Decoder α} {b b' : List UInt8} {w : α} (h : Reads de b w)
    (hb : b = b') : Reads de b' w :=
  hb ▸ h

theorem Reads.getBytes (bs : List UInt8) : Reads (getBytes bs.length) bs bs :=
  fun _ _ h => getBytes_of_rest h

theorem Reads.getLen {k len : Nat} (hk : 1 ≤ k) (hlen : len < 256 ^ k) :
    Reads (getLen k) (BigEndian.fixed k len) len := by
  intro bb rest h
  have hread := getLen_of_rest hk hlen h
  rwa [BigEndian.length_fixed]

theorem Reads.getVarBytes {k : Nat} {bs : List UInt8} (hk : 1 ≤ k) (hlen : bs.length < 256 ^ k) :
    Reads (getVarBytes k) (BigEndian.fixed k bs.length ++ bs) bs := by
  intro bb rest h
  have hread := getVarBytes_of_rest hk hlen h
  rwa [List.length_append, BigEndian.length_fixed]

end Reads

end Serialize
