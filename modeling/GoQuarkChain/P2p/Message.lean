import GoQuarkChain.Serialize.RoundTrip

/-!
# The frame of a peer command

A cluster command travels between peers as the payload of a `Msg`. `Encrypt` puts in
front of the command's serialized bytes a prefix of `PreP2PLength = 13` bytes: the
branch of the shard the command is about, the command's op byte and the rpc id that
pairs a request with its response, the two numbers big-endian. `DecodeQKCMsg` cuts a
payload back into these four parts.

The decoder inverts the encoder exactly: a payload is accepted with a message precisely
when it is what `encrypt` makes of that message (`decodeQKCMsg_eq_ok_iff`), and every
payload of at least 13 bytes is accepted. A command sent with `MakeMsg` therefore
arrives with its branch, op and rpc id, and `DeserializeFromBytes` gives back its value
in the codec's normal form, reading the data to its end (`makeMsg_received`).
-/

namespace P2p

open Serialize

def metadataLength : Nat := 4

def opLength : Nat := 1

def rpcIDLength : Nat := 8

def preP2PLength : Nat := metadataLength + opLength + rpcIDLength

/-- `P2PCommandOp` is a byte; `Hello` is the first of its constants. -/
def hello : UInt8 := 0

def getPeerListResponseMsg : UInt8 := 4

/-- `P2PeerInfo`: an address, through the `Serialize` method of `Uint128`, and a port. -/
def p2PeerInfoType : SerType :=
  .struct "P2PeerInfo" [("IP", {}, .fixSizeBigUint 16), ("Port", {}, .uint .uint16)]

/-- `GetPeerListResponse`. -/
def getPeerListResponseType : SerType :=
  .struct "GetPeerListResponse"
    [("PeerInfoList", { byteSizeOfSliceLen := 4 }, .slice p2PeerInfoType)]

structure Metadata where
  branch : UInt32
deriving DecidableEq, Repr

structure QKCMsg where
  metaData : Metadata
  op : UInt8
  rpcID : UInt64
  data : List UInt8
deriving DecidableEq, Repr

def errBodyShort : String := "decode qkc msg err body is short"

/-- `DecodeQKCMsg`. -/
def decodeQKCMsg (body : List UInt8) : Except String QKCMsg :=
  if body.length < preP2PLength then .error errBodyShort
  else .ok
    { metaData := ⟨UInt32.ofNat (BigEndian.value (body.take metadataLength))⟩
      op := body.getD metadataLength 0
      rpcID := UInt64.ofNat (BigEndian.value
        ((body.drop (metadataLength + opLength)).take rpcIDLength))
      data := body.drop preP2PLength }

/-- `Encrypt`; its error is always `nil`. -/
def encrypt (metadata : Metadata) (op : UInt8) (ipcID : UInt64) (data : List UInt8) :
    Except String (List UInt8) :=
  .ok (BigEndian.fixed metadataLength metadata.branch.toNat ++ [op] ++
    BigEndian.fixed rpcIDLength ipcID.toNat ++ data)

/-- `Msg`, with the bytes of its payload in place of the reader; the receive time is
left out. -/
structure Msg where
  code : UInt64
  size : UInt32
  payload : List UInt8
deriving DecidableEq, Repr

/-- `MakeMsgWithSerializedData`; the size is truncated to 32 bits as in the source. -/
def makeMsgWithSerializedData (op : UInt8) (rpcID : UInt64) (metadata : Metadata)
    (msg : List UInt8) : Except String Msg := do
  let qkcBody ← encrypt metadata op rpcID msg
  pure { code := 0, size := UInt32.ofNat qkcBody.length, payload := qkcBody }

/-- `MakeMsg`: the command of type `ty` is serialized first. -/
def makeMsg (op : UInt8) (rpcID : UInt64) (metadata : Metadata) (ty : SerType) (msg : SerVal) :
    Except String Msg := do
  let cmdBytes ← serializeToBytes ty msg
  makeMsgWithSerializedData op rpcID metadata cmdBytes

/-! ## The prefix -/

theorem encrypt_eq_ok (metadata : Metadata) (op : UInt8) (ipcID : UInt64) (data : List UInt8) :
    encrypt metadata op ipcID data = .ok (BigEndian.fixed 4 metadata.branch.toNat ++ [op] ++
      BigEndian.fixed 8 ipcID.toNat ++ data) := rfl

/-- A payload too short for the prefix is refused, and nothing else is. -/
theorem decodeQKCMsg_eq_error_iff (body : List UInt8) (e : String) :
    decodeQKCMsg body = .error e ↔ body.length < preP2PLength ∧ e = errBodyShort := by
  unfold decodeQKCMsg
  split
  · rename_i hshort
    simp [hshort, eq_comm]
  · rename_i hlong
    simp [hlong]

/-- A body long enough for the prefix, cut at the prefix's three borders. -/
theorem exists_split_of_length {body : List UInt8} (h : preP2PLength ≤ body.length) :
    ∃ b o r d, b.length = metadataLength ∧ r.length = rpcIDLength ∧ body = b ++ [o] ++ r ++ d := by
  simp only [preP2PLength, metadataLength, opLength, rpcIDLength] at h ⊢
  have h4 : 4 < body.length := by omega
  refine ⟨body.take 4, body[4], (body.drop 5).take 8, body.drop 13, ?_, ?_, ?_⟩
  · simp
    omega
  · simp
    omega
  · have hdrop : body.drop 4 = body[4] :: body.drop 5 := List.drop_eq_getElem_cons h4
    have hrest : (body.drop 5).take 8 ++ body.drop 13 = body.drop 5 := by
      have h13 : body.drop 13 = (body.drop 5).drop 8 := by simp [List.drop_drop]
      rw [h13, List.take_append_drop]
    conv_lhs => rw [← List.take_append_drop 4 body, hdrop, ← hrest]
    simp only [List.append_assoc, List.cons_append, List.nil_append]

/-- What `DecodeQKCMsg` reads from a body cut at the prefix's borders. -/
theorem decodeQKCMsg_split {b r : List UInt8} (o : UInt8) (d : List UInt8)
    (hb : b.length = metadataLength) (hr : r.length = rpcIDLength) :
    decodeQKCMsg (b ++ [o] ++ r ++ d) =
      .ok ⟨⟨UInt32.ofNat (BigEndian.value b)⟩, o, UInt64.ofNat (BigEndian.value r), d⟩ := by
  simp only [metadataLength, rpcIDLength] at hb hr
  have hlen : ¬(b ++ [o] ++ r ++ d).length < preP2PLength := by
    simp [preP2PLength, metadataLength, opLength, rpcIDLength, hb, hr]
    omega
  rw [decodeQKCMsg, if_neg hlen]
  simp [preP2PLength, metadataLength, opLength, rpcIDLength, List.drop_append,
    List.drop_eq_nil_of_le, hb, hr]

/-- The prefix's numbers read back: the branch from four bytes, the rpc id from eight. -/
theorem decodeQKCMsg_encrypt {metadata : Metadata} {op : UInt8} {rpcID : UInt64}
    {data body : List UInt8} (h : encrypt metadata op rpcID data = .ok body) :
    decodeQKCMsg body = .ok ⟨metadata, op, rpcID, data⟩ := by
  rw [encrypt_eq_ok, Except.ok.injEq] at h
  subst h
  have hbranch : UInt32.ofNat (BigEndian.value (BigEndian.fixed 4 metadata.branch.toNat)) =
      metadata.branch := by
    rw [BigEndian.value_fixed_of_lt (by simpa using metadata.branch.toNat_lt), UInt32.ofNat_toNat]
  have hrpc : UInt64.ofNat (BigEndian.value (BigEndian.fixed 8 rpcID.toNat)) = rpcID := by
    rw [BigEndian.value_fixed_of_lt (by simpa using rpcID.toNat_lt), UInt64.ofNat_toNat]
  rw [decodeQKCMsg_split op data (BigEndian.length_fixed 4 _) (BigEndian.length_fixed 8 _),
    hbranch, hrpc]

/-- An accepted payload is its message's prefix followed by its data. -/
theorem encrypt_of_decodeQKCMsg {body : List UInt8} {m : QKCMsg}
    (h : decodeQKCMsg body = .ok m) : encrypt m.metaData m.op m.rpcID m.data = .ok body := by
  have hlong : preP2PLength ≤ body.length := by
    by_contra hshort
    rw [decodeQKCMsg, if_pos (by omega)] at h
    cases h
  obtain ⟨b, o, r, d, hb, hr, rfl⟩ := exists_split_of_length hlong
  rw [decodeQKCMsg_split o d hb hr, Except.ok.injEq] at h
  subst h
  simp only [metadataLength, rpcIDLength] at hb hr
  -- each number is below the bound of its Go type, so it is written back as it was read
  have hbranch : BigEndian.fixed 4 (UInt32.ofNat (BigEndian.value b)).toNat = b := by
    have hlt : BigEndian.value b < 2 ^ 32 := by simpa [hb] using BigEndian.value_lt b
    rw [UInt32.toNat_ofNat', Nat.mod_eq_of_lt hlt]
    simpa [hb] using BigEndian.fixed_value b
  have hrpc : BigEndian.fixed 8 (UInt64.ofNat (BigEndian.value r)).toNat = r := by
    have hlt : BigEndian.value r < 2 ^ 64 := by simpa [hr] using BigEndian.value_lt r
    rw [UInt64.toNat_ofNat', Nat.mod_eq_of_lt hlt]
    simpa [hr] using BigEndian.fixed_value r
  rw [encrypt_eq_ok, hbranch, hrpc]

/-- `DecodeQKCMsg` inverts `Encrypt` exactly: it accepts a body with a message precisely
when the body is that message's prefix followed by its data. -/
theorem decodeQKCMsg_eq_ok_iff (body : List UInt8) (m : QKCMsg) :
    decodeQKCMsg body = .ok m ↔ encrypt m.metaData m.op m.rpcID m.data = .ok body :=
  ⟨encrypt_of_decodeQKCMsg, decodeQKCMsg_encrypt⟩

/-! ## Sending a command -/

/-- `MakeMsg` fails exactly when the command does not serialize; otherwise the payload is
the command's bytes behind the prefix, under code `0`. -/
theorem makeMsg_eq_ok_iff {op : UInt8} {rpcID : UInt64} {metadata : Metadata} {ty : SerType}
    {v : SerVal} {msg : Msg} :
    makeMsg op rpcID metadata ty v = .ok msg ↔ ∃ cmdBytes, serializeToBytes ty v = .ok cmdBytes ∧
      encrypt metadata op rpcID cmdBytes = .ok msg.payload ∧ msg.code = 0 ∧
      msg.size = UInt32.ofNat msg.payload.length := by
  constructor
  · intro h
    obtain ⟨cmdBytes, hser, hmake⟩ := Except.bind_eq_ok.mp h
    obtain ⟨body, hbody, hpure⟩ := Except.bind_eq_ok.mp hmake
    cases hpure
    exact ⟨cmdBytes, hser, hbody, rfl, rfl⟩
  · rintro ⟨cmdBytes, hser, hbody, hcode, hsize⟩
    obtain ⟨code, size, payload⟩ := msg
    dsimp only at hbody hcode hsize
    subst hcode hsize
    rw [makeMsg, hser, Except.ok_bind, makeMsgWithSerializedData, hbody, Except.ok_bind]
    rfl

/-- A command that fits its type, sent with `MakeMsg`, is received whole: the payload
decodes to the branch, op and rpc id it was sent with, and `DeserializeFromBytes` gives
back the command's normal form, having read its data to the end. -/
theorem makeMsg_received (op : UInt8) (rpcID : UInt64) (metadata : Metadata) (ty : SerType)
    (v : SerVal) (hfit : fits ty {} v = true) :
    ∃ msg data, makeMsg op rpcID metadata ty v = .ok msg ∧
      decodeQKCMsg msg.payload = .ok ⟨metadata, op, rpcID, data⟩ ∧
      deserializeFromBytes data ty = .ok (norm ty {} v, ⟨data, data.length⟩) := by
  obtain ⟨bytes, hser, -⟩ := serializer_norm_ok ty {} v hfit
  obtain ⟨body, hbody⟩ : ∃ body, encrypt metadata op rpcID bytes = .ok body := ⟨_, rfl⟩
  refine ⟨⟨0, UInt32.ofNat body.length, body⟩, bytes,
    makeMsg_eq_ok_iff.mpr ⟨bytes, hser, hbody, rfl, rfl⟩, decodeQKCMsg_encrypt hbody, ?_⟩
  simpa [deserializeFromBytes] using deserialize_of_serialize hfit hser []

/- A peer list answering request `7`, with one peer at `127.0.0.1:38291`. -/
example :
    ∃ msg data, makeMsg getPeerListResponseMsg 7 ⟨0⟩ getPeerListResponseType
        (.struct [.list [.struct [.fixSizeBigUint (some 2130706433), .uint 38291]]]) = .ok msg ∧
      decodeQKCMsg msg.payload = .ok ⟨⟨0⟩, getPeerListResponseMsg, 7, data⟩ ∧
      deserializeFromBytes data getPeerListResponseType =
        .ok (norm getPeerListResponseType {}
          (.struct [.list [.struct [.fixSizeBigUint (some 2130706433), .uint 38291]]]),
          ⟨data, data.length⟩) :=
  makeMsg_received _ _ _ _ _ (by decide)

end P2p
