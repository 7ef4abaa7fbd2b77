import GoQuarkChain.P2p.Message
import GoQuarkChain.Serialize.Decoded

/-!
# The hello exchange between two masters

When two masters connect, each sends a `HelloCmd` and reads the other's
(`Peer.Handshake`). A hello carries the sender's protocol version, network id, peer
id, port, root tip and genesis root block hash. `readStatus` decodes the hello it
receives and checks, in this order, the message code, the network id, the protocol
version, that a root tip is there, and the genesis hash; once all pass, the root tip
received becomes the peer's.

Over a transport that delivers the message as written, master `a` accepts the hello
of master `b` exactly when the two agree on network, protocol version and genesis, and
then holds `b`'s root tip in the codec's normal form; each mismatch is reported with
its own error, the first in the order above (`handshake_spec`). Acceptance is therefore
mutual (`handshake_mutual`). A master with no root tip is accepted all the same:
`RootBlockHeader` has no `nil` tag, so a nil tip is written as the zero header and
arrives as a pointer to it. In fact the check for a missing tip never fails, whatever
message arrives: every hello that decodes carries a tip, and the other stages report
other errors (`readStatus_never_reports_nil_tip`).

The encoding of `types.RootBlockHeader` is a parameter: its `CoinbaseAmount` goes
through the `Serialize` method of `TokenBalances`, outside the reflective codec.
-/

namespace Cluster

open Serialize P2p

/-- The fields of `p2p.HelloCmd` in order, with their tags. -/
def helloCmdFields (rootBlockHeader : SerType) : List (String × Tags × SerType) :=
  [("Version", {}, .uint .uint32),
   ("NetWorkID", {}, .uint .uint32),
   ("PeerID", {}, .byteArray 32),
   ("PeerIP", {}, .fixSizeBigUint 16),
   ("PeerPort", {}, .uint .uint16),
   ("ChainMaskList", { byteSizeOfSliceLen := 4 }, .slice (.uint .uint32)),
   ("RootBlockHeader", {}, .ptr rootBlockHeader),
   ("GenesisRootBlockHash", {}, .byteArray 32)]

def helloCmdType (rootBlockHeader : SerType) : SerType :=
  .struct "HelloCmd" (helloCmdFields rootBlockHeader)

/-- The arguments of `Peer.Handshake`: what a master says about itself. -/
structure HandshakeParams where
  protoVersion : UInt32
  networkId : UInt32
  peerId : List.Vector UInt8 32
  peerPort : UInt16
  rootBlockHeader : Option SerVal
  genesisRootBlockHash : List.Vector UInt8 32

/-- The `HelloCmd` that `Handshake` sends; it sets no address and no chain masks. -/
def helloCmd (p : HandshakeParams) : SerVal :=
  .struct [.uint p.protoVersion.toNat, .uint p.networkId.toNat, .bytes p.peerId.toList,
    .fixSizeBigUint none, .uint p.peerPort.toNat, .list [], .ptr p.rootBlockHeader,
    .bytes p.genesisRootBlockHash.toList]

/-- The message `Handshake` writes: op `Hello`, rpc id `0`, branch `0`. -/
def handshakeHello (rootBlockHeader : SerType) (p : HandshakeParams) : Except String Msg :=
  makeMsg hello 0 ⟨0⟩ (helloCmdType rootBlockHeader) (helloCmd p)

def errNetworkIdMismatch (got want : Nat) : String :=
  s!"networkid mismatch, get: {got}, want: {want}"

def errVersionMismatch (got want : Nat) : String :=
  s!"protoco version mismatch, get: {got}, want: {want}"

def errNilRootBlockHeader : String := "root block header in hello cmd is nil"

def errGenesisMismatch : String := "genesis block mismatch"

/-- The checks `readStatus` makes on the decoded hello after the code, in its order;
the result is the root tip it sets. The last case, a value not of the struct's shape,
stands for what decoding into a `HelloCmd` variable cannot produce. -/
def checkHello (protoVersion networkId : UInt32) (genesisRootBlockHash : List.Vector UInt8 32) :
    SerVal → Except String SerVal
  | .struct [.uint version, .uint netWorkID, _, _, _, _, .ptr rootBlockHeader, .bytes genesis] =>
    if netWorkID ≠ networkId.toNat then .error (errNetworkIdMismatch netWorkID networkId.toNat)
    else if version ≠ protoVersion.toNat then
      .error (errVersionMismatch version protoVersion.toNat)
    else match rootBlockHeader with
      | none => .error errNilRootBlockHeader
      | some header =>
        if genesis ≠ genesisRootBlockHash.toList then .error errGenesisMismatch else .ok header
  | _ => .error errTypeMismatch

/-- `Peer.readStatus`, on the message the transport delivered. -/
def readStatus (rootBlockHeader : SerType) (protoVersion networkId : UInt32)
    (genesisRootBlockHash : List.Vector UInt8 32) (msg : Msg) : Except String SerVal := do
  let qkcMsg ← decodeQKCMsg msg.payload
  let (cmd, _) ← deserializeFromBytes qkcMsg.data (helloCmdType rootBlockHeader)
  if msg.code ≠ hello.toUInt64 then throw "msgCode is err"
  checkHello protoVersion networkId genesisRootBlockHash cmd

/-- What master `a` makes of the hello that master `b` sends it. -/
def handshake (rootBlockHeader : SerType) (a b : HandshakeParams) : Except String SerVal := do
  let msg ← handshakeHello rootBlockHeader b
  readStatus rootBlockHeader a.protoVersion a.networkId a.genesisRootBlockHash msg

/-! ## The hello on the wire -/

section Hello

variable (rootBlockHeader : SerType) (p : HandshakeParams)

/-- The hello is written whenever the root tip is. -/
theorem fits_helloCmd :
    fits (helloCmdType rootBlockHeader) {} (helloCmd p) =
      fits (.ptr rootBlockHeader) {} (.ptr p.rootBlockHeader) := by
  have hversion := p.protoVersion.toNat_lt
  have hnetwork := p.networkId.toNat_lt
  have hport := p.peerPort.toNat_lt
  simp [helloCmdType, helloCmdFields, helloCmd, fits, fitsFields, uintFits, hversion, hnetwork, hport,
    BigEndian.minimal, BigEndian.minimalAux]

/-- What the receiver decodes: the numbers and hashes as sent, a zero address, and a
pointer to the root tip, or to the zero header for a nil one. -/
theorem norm_helloCmd :
    norm (helloCmdType rootBlockHeader) {} (helloCmd p) =
      .struct [.uint p.protoVersion.toNat, .uint p.networkId.toNat, .bytes p.peerId.toList,
        .fixSizeBigUint (some 0), .uint p.peerPort.toNat, .list [],
        .ptr (some (norm rootBlockHeader {} (p.rootBlockHeader.getD (zeroVal rootBlockHeader)))),
        .bytes p.genesisRootBlockHash.toList] := by
  cases hroot : p.rootBlockHeader <;>
    simp [helloCmdType, helloCmdFields, helloCmd, Serialize.norm, normFields, hroot]

/-- The checks on a hello that a master sent: its network, version and genesis against
the reader's; its root tip is always there. -/
theorem checkHello_norm_helloCmd (protoVersion networkId : UInt32)
    (genesisRootBlockHash : List.Vector UInt8 32) :
    checkHello protoVersion networkId genesisRootBlockHash
        (norm (helloCmdType rootBlockHeader) {} (helloCmd p)) =
      if p.networkId ≠ networkId then
        .error (errNetworkIdMismatch p.networkId.toNat networkId.toNat)
      else if p.protoVersion ≠ protoVersion then
        .error (errVersionMismatch p.protoVersion.toNat protoVersion.toNat)
      else if p.genesisRootBlockHash ≠ genesisRootBlockHash then .error errGenesisMismatch
      else .ok (norm rootBlockHeader {} (p.rootBlockHeader.getD (zeroVal rootBlockHeader))) := by
  rw [norm_helloCmd, checkHello]
  simp only [ne_eq, UInt32.toNat_inj, List.Vector.toList_injective.eq_iff]

/-- A hello passes the checks exactly when its sender agrees with the reader on network,
version and genesis. -/
theorem isOk_checkHello_norm_helloCmd (protoVersion networkId : UInt32)
    (genesisRootBlockHash : List.Vector UInt8 32) :
    (checkHello protoVersion networkId genesisRootBlockHash
        (norm (helloCmdType rootBlockHeader) {} (helloCmd p))).isOk =
      decide (p.networkId = networkId ∧ p.protoVersion = protoVersion ∧
        p.genesisRootBlockHash = genesisRootBlockHash) := by
  rw [checkHello_norm_helloCmd]
  by_cases hnet : p.networkId = networkId
  · by_cases hver : p.protoVersion = protoVersion
    · by_cases hgen : p.genesisRootBlockHash = genesisRootBlockHash
      · simp [hnet, hver, hgen, Except.isOk, Except.toBool]
      · simp [hnet, hver, hgen, Except.isOk, Except.toBool]
    · simp [hnet, hver, Except.isOk, Except.toBool]
  · simp [hnet, Except.isOk, Except.toBool]

end Hello

/-! ## The exchange -/

/-- Master `a` runs its checks on the decoded form of the hello that `b` sent: the
message is framed and read back whole. -/
theorem handshake_eq_checkHello (rootBlockHeader : SerType) (a b : HandshakeParams)
    (hfit : fits (.ptr rootBlockHeader) {} (.ptr b.rootBlockHeader) = true) :
    handshake rootBlockHeader a b = checkHello a.protoVersion a.networkId a.genesisRootBlockHash
      (norm (helloCmdType rootBlockHeader) {} (helloCmd b)) := by
  have hfits : fits (helloCmdType rootBlockHeader) {} (helloCmd b) = true := by
    rw [fits_helloCmd]
    exact hfit
  obtain ⟨msg, data, hmsg, hdecode, hread⟩ := makeMsg_received hello 0 ⟨0⟩ _ _ hfits
  obtain ⟨_, -, -, hcode, -⟩ := makeMsg_eq_ok_iff.mp hmsg
  have hhello : handshakeHello rootBlockHeader b = .ok msg := hmsg
  rw [handshake, hhello, Except.ok_bind, readStatus, hdecode, Except.ok_bind, hread,
    Except.ok_bind]
  -- `MakeMsg` writes code `0`, the code of `Hello`
  simp [hcode, hello]

/-- The outcome of the hello exchange, seen from master `a`: the first of network id,
protocol version and genesis hash on which `b` differs is reported, and if there is none,
`a` holds `b`'s root tip in the codec's normal form (the zero header for a nil one). -/
theorem handshake_spec (rootBlockHeader : SerType) (a b : HandshakeParams)
    (hfit : fits (.ptr rootBlockHeader) {} (.ptr b.rootBlockHeader) = true) :
    handshake rootBlockHeader a b =
      if b.networkId ≠ a.networkId then
        .error (errNetworkIdMismatch b.networkId.toNat a.networkId.toNat)
      else if b.protoVersion ≠ a.protoVersion then
        .error (errVersionMismatch b.protoVersion.toNat a.protoVersion.toNat)
      else if b.genesisRootBlockHash ≠ a.genesisRootBlockHash then .error errGenesisMismatch
      else .ok (norm rootBlockHeader {} (b.rootBlockHeader.getD (zeroVal rootBlockHeader))) := by
  rw [handshake_eq_checkHello rootBlockHeader a b hfit, checkHello_norm_helloCmd]

/-- Two masters of network `1` at version `1` with one genesis; the sender has no root
tip yet, and the reader holds the zero header for it. -/
theorem handshake_spec_nil_tip :
    fits (.ptr (.struct "RootBlockHeader" [("Version", {}, .uint .uint32),
        ("Number", {}, .uint .uint32)])) {} (.ptr none) = true ∧
      handshake (.struct "RootBlockHeader" [("Version", {}, .uint .uint32),
          ("Number", {}, .uint .uint32)])
          ⟨1, 1, List.Vector.replicate 32 1, 38291, some (.struct [.uint 1, .uint 7]),
            List.Vector.replicate 32 9⟩
          ⟨1, 1, List.Vector.replicate 32 2, 38292, none, List.Vector.replicate 32 9⟩ =
        if (1 : UInt32) ≠ 1 then .error (errNetworkIdMismatch 1 1)
        else if (1 : UInt32) ≠ 1 then .error (errVersionMismatch 1 1)
        else if List.Vector.replicate 32 (9 : UInt8) ≠ List.Vector.replicate 32 9 then
          .error errGenesisMismatch
        else .ok (norm (.struct "RootBlockHeader" [("Version", {}, .uint .uint32),
          ("Number", {}, .uint .uint32)]) {} ((none : Option SerVal).getD
            (zeroVal (.struct "RootBlockHeader" [("Version", {}, .uint .uint32),
              ("Number", {}, .uint .uint32)])))) :=
  ⟨by decide, handshake_spec _ _ _ (by decide)⟩

/-- Acceptance is mutual: `a` accepts the hello of `b` exactly when `b` accepts that of
`a`, both root tips being encodable. -/
theorem handshake_mutual (rootBlockHeader : SerType) (a b : HandshakeParams)
    (ha : fits (.ptr rootBlockHeader) {} (.ptr a.rootBlockHeader) = true)
    (hb : fits (.ptr rootBlockHeader) {} (.ptr b.rootBlockHeader) = true) :
    (handshake rootBlockHeader a b).isOk = (handshake rootBlockHeader b a).isOk := by
  rw [handshake_eq_checkHello rootBlockHeader a b hb, handshake_eq_checkHello rootBlockHeader b a ha,
    isOk_checkHello_norm_helloCmd, isOk_checkHello_norm_helloCmd]
  apply decide_eq_decide.mpr
  constructor
  · rintro ⟨hnet, hver, hgen⟩
    exact ⟨hnet.symm, hver.symm, hgen.symm⟩
  · rintro ⟨hnet, hver, hgen⟩
    exact ⟨hnet.symm, hver.symm, hgen.symm⟩

/-- Masters on networks `1` and `2`, each with a root tip. -/
theorem handshake_mutual_two_networks :
    fits (.ptr (.uint .uint32)) {} (.ptr (some (.uint 7))) = true ∧
      fits (.ptr (.uint .uint32)) {} (.ptr (some (.uint 8))) = true ∧
      (handshake (.uint .uint32)
          ⟨1, 1, List.Vector.replicate 32 1, 38291, some (.uint 7), List.Vector.replicate 32 9⟩
          ⟨1, 2, List.Vector.replicate 32 2, 38292, some (.uint 8), List.Vector.replicate 32 9⟩).isOk =
        (handshake (.uint .uint32)
          ⟨1, 2, List.Vector.replicate 32 2, 38292, some (.uint 8), List.Vector.replicate 32 9⟩
          ⟨1, 1, List.Vector.replicate 32 1, 38291, some (.uint 7), List.Vector.replicate 32 9⟩).isOk :=
  ⟨by decide, by decide, handshake_mutual _ _ _ (by decide) (by decide)⟩

/-! ## Any message that arrives -/

/-- Whatever bytes arrive, a hello that decodes has the struct's shape and carries a root
tip: `RootBlockHeader` has no `nil` tag. -/
theorem decoded_hello_shape {rootBlockHeader : SerType} {data : List UInt8} {cmd : SerVal}
    {bb : ByteBuffer} (h : deserializeFromBytes data (helloCmdType rootBlockHeader) = .ok (cmd, bb)) :
    ∃ version netWorkID peerID peerIP peerPort chainMaskList tip genesis,
      cmd = .struct [.uint version, .uint netWorkID, peerID, peerIP, peerPort, chainMaskList,
        .ptr (some tip), .bytes genesis] := by
  obtain ⟨vs, rfl, hvs⟩ := (deserialize_normal h).struct
  -- the eight fields in order, none of them ignored
  obtain ⟨v₀, vs, rfl, h₀, hvs⟩ := hvs.cons rfl
  obtain ⟨v₁, vs, rfl, h₁, hvs⟩ := hvs.cons rfl
  obtain ⟨v₂, vs, rfl, -, hvs⟩ := hvs.cons rfl
  obtain ⟨v₃, vs, rfl, -, hvs⟩ := hvs.cons rfl
  obtain ⟨v₄, vs, rfl, -, hvs⟩ := hvs.cons rfl
  obtain ⟨v₅, vs, rfl, -, hvs⟩ := hvs.cons rfl
  obtain ⟨v₆, vs, rfl, h₆, hvs⟩ := hvs.cons rfl
  obtain ⟨v₇, vs, rfl, h₇, hvs⟩ := hvs.cons rfl
  obtain rfl := hvs.nil
  obtain ⟨version, rfl⟩ := h₀.uint
  obtain ⟨netWorkID, rfl⟩ := h₁.uint
  obtain ⟨tip, rfl⟩ := h₆.ptr_some rfl
  obtain ⟨genesis, rfl⟩ := h₇.byteArray
  exact ⟨version, netWorkID, v₂, v₃, v₄, v₅, tip, genesis, rfl⟩

theorem errNetworkIdMismatch_ne_nil (got want : Nat) :
    errNetworkIdMismatch got want ≠ errNilRootBlockHeader := by
  unfold errNetworkIdMismatch errNilRootBlockHeader
  intro h
  -- the two reports begin with different letters
  have hfirst := congrArg (fun s => s.toList.head?) h
  simp [ToString.toString] at hfirst

theorem errVersionMismatch_ne_nil (got want : Nat) :
    errVersionMismatch got want ≠ errNilRootBlockHeader := by
  unfold errVersionMismatch errNilRootBlockHeader
  intro h
  -- the two reports begin with different letters
  have hfirst := congrArg (fun s => s.toList.head?) h
  simp [ToString.toString] at hfirst

/-- The checks on a hello of the decoded shape never report a missing root tip. -/
theorem checkHello_ne_nilRootBlockHeader (protoVersion networkId : UInt32)
    (genesisRootBlockHash : List.Vector UInt8 32) (version netWorkID : Nat)
    (peerID peerIP peerPort chainMaskList tip : SerVal) (genesis : List UInt8) :
    checkHello protoVersion networkId genesisRootBlockHash
        (.struct [.uint version, .uint netWorkID, peerID, peerIP, peerPort, chainMaskList,
          .ptr (some tip), .bytes genesis]) ≠ .error errNilRootBlockHeader := by
  simp only [checkHello]
  split_ifs
  · exact fun h => errNetworkIdMismatch_ne_nil _ _ (Except.error.inj h)
  · exact fun h => errVersionMismatch_ne_nil _ _ (Except.error.inj h)
  · unfold errGenesisMismatch errNilRootBlockHeader
    simp
  · simp

/-- A decode error of the hello names one of its fields, so it is not the report of a
missing root tip. -/
theorem fieldError_helloCmd_ne_nil {rootBlockHeader : SerType} {f : String × Tags × SerType}
    (hf : f ∈ helloCmdFields rootBlockHeader) (err : String) :
    fieldError "HelloCmd" f.1 err ≠ errNilRootBlockHeader := by
  simp only [helloCmdFields, List.mem_cons, List.not_mem_nil, or_false] at hf
  unfold fieldError errNilRootBlockHeader
  -- every field name ends in a letter other than the last of the report
  rcases hf with rfl | rfl | rfl | rfl | rfl | rfl | rfl | rfl <;>
  · intro h
    have hlast := congrArg (fun s => s.toList.getLast?) h
    simp [ToString.toString] at hlast

/-- Whatever message arrives, `readStatus` never fails at its check for a missing root
tip: the other stages report other errors, and a hello that decodes carries a tip. -/
theorem readStatus_never_reports_nil_tip (rootBlockHeader : SerType)
    (protoVersion networkId : UInt32) (genesisRootBlockHash : List.Vector UInt8 32) (msg : Msg) :
    readStatus rootBlockHeader protoVersion networkId genesisRootBlockHash msg ≠
      .error errNilRootBlockHeader := by
  unfold readStatus
  cases hdec : decodeQKCMsg msg.payload with
  | error e =>
    -- only a body too short for the prefix is refused
    rw [((decodeQKCMsg_eq_error_iff _ _).mp hdec).2]
    unfold errBodyShort errNilRootBlockHeader
    simp
  | ok q =>
    rw [Except.ok_bind]
    cases hdes : deserializeFromBytes q.data (helloCmdType rootBlockHeader) with
    | error e =>
      obtain ⟨f, hf, err, rfl⟩ := fails_deserializer_struct _ _ {} _ e hdes
      simpa using fieldError_helloCmd_ne_nil hf err
    | ok r =>
      obtain ⟨cmd, bb⟩ := r
      obtain ⟨version, netWorkID, peerID, peerIP, peerPort, chainMaskList, tip, genesis, rfl⟩ :=
        decoded_hello_shape hdes
      rw [Except.ok_bind]
      dsimp only
      split_ifs
      · -- a code other than that of `Hello`
        unfold errNilRootBlockHeader
        simp
      · exact checkHello_ne_nilRootBlockHeader _ _ _ _ _ _ _ _ _ _ _

end Cluster
