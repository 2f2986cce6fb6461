import SAeroRP.Routing.EncryptionCalls
import SAeroRP.System.Sample

/-! Secure control messages. What RouteOutput makes of an advertisement in secure
mode, a node with the same key and the right associated data turns back into the
same table update that the plain advertisement leads to without security. -/

namespace SAeroRP.SecureControl

open Library Node

variable {β : Type}

/-! ### Encryption -/

section
variable (E : Env β) (chance : Chance) (n : Node) (header : Ipv4Header) (uid : UInt64)
  (deferred : Bool)

/-- The cipher and the tag of a message that starts with `bs`. -/
def sealed (size : ℕ) (bs : Bytes) : Block size × Block TAG_SIZE :=
  GCMConverter.encryption E.gcm (Block.copyData chance.byte size bs)
    (gcmAad n.myAddress header.destination) n.sharedKey (gcmIv uid)

/-- The secure message of the given type. -/
def sealedBytes (type : MessageType) (size : ℕ) (bs : Bytes) : Bytes :=
  TypeHeader.serialize ⟨type, true⟩ ++ ((sealed E chance n header uid size bs).1.toList ++
    (sealed E chance n header uid size bs).2.toList)

theorem length_type (type : MessageType) : (TypeHeader.serialize ⟨type, true⟩).length = 1 := rfl

theorem length_sealedBytes (type : MessageType) (size : ℕ) (bs : Bytes) :
    (sealedBytes E chance n header uid type size bs).length = 1 + (size + TAG_SIZE) := by
  simp [sealedBytes, length_type]

/-- What RouteOutput does with a packet that starts with a type byte and a header of `size`
bytes: the header is encrypted, and replaced by cipher and tag. -/
def encryptMessage {H : Type} (size : ℕ) (old : TypeHeader) (secure : MessageType)
    (deserialize : Reader H) (aad : Block AAD_LENGTH) (iv : Block IV_LENGTH) (p : Packet) :
    Except Fault Packet := do
  if p.getSize = size + 1 then
    let (_, p) ← p.removeHeader old.deserialize
    let pText := Block.copyData chance.byte size p.bytes
    let (cipher, tag) := GCMConverter.encryption E.gcm pText aad n.sharedKey iv
    let (_, p) ← p.removeHeader deserialize
    let p := p.addHeader (cipher.toList ++ tag.toList)
    return p.addHeader (TypeHeader.serialize ⟨secure, true⟩)
  else return p

theorem encryptHello_eq (aad : Block AAD_LENGTH) (iv : Block IV_LENGTH) (p : Packet) :
    n.encryptHello E chance aad iv p = encryptMessage E chance n HELLO_PACKET_SIZE ⟨.hello, true⟩
      .secureHello HelloHeader.deserialize aad iv p := by
  simp only [encryptHello, encryptMessage, SecureHelloHeader.serialize_eq]

theorem encryptGSGeoLocation_eq (aad : Block AAD_LENGTH) (iv : Block IV_LENGTH) (p : Packet) :
    n.encryptGSGeoLocation E chance aad iv p = encryptMessage E chance n GS_PACKET_SIZE
      ⟨.gsGeoLocation, true⟩ .secureGSGeoLocation GSGeoLocationHeader.deserialize aad iv p := by
  simp only [encryptGSGeoLocation, encryptMessage, SecureGSGeoLocationHeader.serialize_eq]

/-- A packet with the size of a control message becomes the secure message, whatever its type
byte is. -/
theorem encryptMessage_cons {H : Type} {size : ℕ} {old : TypeHeader} {secure : MessageType}
    {deserialize : Reader H} {hdr : H} {bs : Bytes} (hr : Reader.Reads deserialize bs hdr)
    (hlen : bs.length = size) (type : UInt8) :
    encryptMessage E chance n size old secure deserialize (gcmAad n.myAddress header.destination)
        (gcmIv uid) ⟨type :: bs, uid, deferred⟩ =
      .ok ⟨sealedBytes E chance n header uid secure size bs, uid, deferred⟩ := by
  have hsize : (Packet.mk (type :: bs) uid deferred).getSize = size + 1 := by
    rw [Packet.getSize, List.length_cons, hlen]
  obtain ⟨_, htype⟩ := removeHeader_type (p := ⟨type :: bs, uid, deferred⟩) old rfl
  have hhdr := Packet.removeHeader_addHeader hr ⟨[], uid, deferred⟩
  simp only [Packet.addHeader, List.append_nil] at hhdr
  rw [encryptMessage, if_pos hsize, htype, ok_bind]
  dsimp only
  rw [hhdr, ok_bind]
  simp only [Packet.addHeader, List.append_nil]
  rfl

theorem encryptHello_cons (type : UInt8) (hdr : HelloHeader) :
    n.encryptHello E chance (gcmAad n.myAddress header.destination) (gcmIv uid)
        ⟨type :: hdr.serialize, uid, deferred⟩ =
      .ok ⟨sealedBytes E chance n header uid .secureHello HELLO_PACKET_SIZE hdr.serialize, uid,
        deferred⟩ :=
  (encryptHello_eq ..).trans (encryptMessage_cons E chance n header uid deferred
    (HelloHeader.reads hdr) hdr.length_serialize type)

theorem encryptGSGeoLocation_cons (type : UInt8) (hdr : GSGeoLocationHeader) :
    n.encryptGSGeoLocation E chance (gcmAad n.myAddress header.destination) (gcmIv uid)
        ⟨type :: hdr.serialize, uid, deferred⟩ =
      .ok ⟨sealedBytes E chance n header uid .secureGSGeoLocation GS_PACKET_SIZE hdr.serialize, uid,
        deferred⟩ :=
  (encryptGSGeoLocation_eq ..).trans (encryptMessage_cons E chance n header uid deferred
    (GSGeoLocationHeader.reads hdr) hdr.length_serialize type)

/-- The size of what results keeps the other two encryptions away. -/
theorem securePacket_helloSize (type : UInt8) (hdr : HelloHeader) :
    n.securePacket E chance ⟨type :: hdr.serialize, uid, deferred⟩ header =
      .ok ⟨sealedBytes E chance n header uid .secureHello HELLO_PACKET_SIZE hdr.serialize, uid,
        deferred⟩ := by
  have hlen := length_sealedBytes E chance n header uid .secureHello HELLO_PACKET_SIZE hdr.serialize
  rw [securePacket]
  dsimp only
  rw [encryptHello_cons, ok_bind, encryptGSGeoLocation_of_size, ok_bind, encryptData, if_neg]
  · rfl
  · rw [Packet.getSize, hlen]
    decide
  · rw [Packet.getSize, hlen]
    decide

theorem securePacket_gsGeoLocationSize (type : UInt8) (hdr : GSGeoLocationHeader) :
    n.securePacket E chance ⟨type :: hdr.serialize, uid, deferred⟩ header =
      .ok ⟨sealedBytes E chance n header uid .secureGSGeoLocation GS_PACKET_SIZE hdr.serialize, uid,
        deferred⟩ := by
  have hlen := length_sealedBytes E chance n header uid .secureGSGeoLocation GS_PACKET_SIZE
    hdr.serialize
  have hplain : (type :: hdr.serialize).length = GSGeoLocationHeader.getSerializedSize + 1 := by
    rw [List.length_cons, hdr.length_serialize]
  rw [securePacket]
  dsimp only
  rw [encryptHello_of_size, ok_bind, encryptGSGeoLocation_cons, ok_bind, encryptData, if_neg]
  · rfl
  · rw [Packet.getSize, hlen]
    decide
  · rw [Packet.getSize, hplain]
    decide

theorem securePacket_of_hello (hdr : HelloHeader) :
    n.securePacket E chance
        ⟨TypeHeader.serialize ⟨.hello, true⟩ ++ hdr.serialize, uid, deferred⟩ header =
      .ok ⟨sealedBytes E chance n header uid .secureHello HELLO_PACKET_SIZE hdr.serialize, uid,
        deferred⟩ := securePacket_helloSize E chance n header uid deferred _ hdr

theorem securePacket_of_gsGeoLocation (hdr : GSGeoLocationHeader) :
    n.securePacket E chance
        ⟨TypeHeader.serialize ⟨.gsGeoLocation, true⟩ ++ hdr.serialize, uid, deferred⟩ header =
      .ok ⟨sealedBytes E chance n header uid .secureGSGeoLocation GS_PACKET_SIZE hdr.serialize, uid,
        deferred⟩ := securePacket_gsGeoLocationSize E chance n header uid deferred _ hdr

end

/-! ### Decryption -/

section
variable {E : Env β} {chance chance' : Chance} {n m : Node} {header : Ipv4Header} {uid : UInt64}

/-- The receiver holds the sender's key, and associated data that name the
sender's data interface and the destination. -/
structure Matches (n m : Node) (header : Ipv4Header) : Prop where
  auth : m.authenticationStatus = .auth
  sharedKey : m.sharedKey = n.sharedKey
  aad : m.gcmAadToBeChecked = gcmAad n.myAddress header.destination

variable (chance') in
/-- The receiver finds the plaintext behind a cipher and a tag of the sender. -/
theorem secureCheck_sealed (hgcm : E.gcm.Inverts) (hm : Matches n m header) {size : ℕ} {bs : Bytes}
    {p : Packet} (huid : p.uid = uid)
    (hbytes : p.bytes = (sealed E chance n header uid size bs).1.toList ++
      (sealed E chance n header uid size bs).2.toList) :
    m.secureCheck E chance' size p = (1, Block.copyData chance.byte size bs) := by
  subst huid
  have hcipher : (Block.copyData chance'.byte (size + TAG_SIZE) p.bytes).slice 0 size (by omega) =
      (sealed E chance n header p.uid size bs).1 := by
    rw [Block.slice_copyData, hbytes, List.drop_zero, Block.copyData_append]
  have htag : (Block.copyData chance'.byte (size + TAG_SIZE) p.bytes).slice size TAG_SIZE le_rfl =
      (sealed E chance n header p.uid size bs).2 := by
    have hlen := (sealed E chance n header p.uid size bs).1.toList_length
    rw [Block.slice_copyData, hbytes, List.drop_left' hlen,
      ← List.append_nil (List.Vector.toList _), Block.copyData_append]
  have hplain := hgcm size (Block.copyData chance.byte size bs)
    (gcmAad n.myAddress header.destination) n.sharedKey (gcmIv p.uid)
  simp only [secureCheck, hcipher, htag, hm.sharedKey, hm.aad, GCMConverter.dencryption, sealed,
    GCMConverter.encryption, hplain]
  rfl

/-- A copy of a whole message is the message. -/
theorem toList_copyData_self (unset : ℕ → UInt8) {size : ℕ} {bs : Bytes} (h : bs.length = size) :
    (Block.copyData unset size bs).toList = bs := by
  rw [Block.toList_copyData unset h.ge, List.take_of_length_le h.le]

theorem not_ignores (hauth : m.authenticationStatus = .auth) (type : MessageType) :
    ¬ m.Ignores type := by
  simp [Ignores, hauth]

theorem not_ignores_of_insecure (hsec : m.securityState = false) (type : MessageType) :
    ¬ m.Ignores type := by
  simp [Ignores, hsec]

/-- A SECURE_HELLO whose check succeeds is processed as the HELLO in its plaintext. -/
theorem recvAERORP_secureHello (hauth : m.authenticationStatus = .auth) (now : Time) {d : Datagram}
    {sec : SecureHelloHeader} {ptext : Block HELLO_PACKET_SIZE} {hdr : HelloHeader}
    (hbytes : d.packet.bytes = TypeHeader.serialize ⟨.secureHello, true⟩ ++ sec.serialize)
    (hcheck : m.secureCheck E chance' HELLO_PACKET_SIZE d.body.packet = (1, ptext))
    (hptext : ptext.toList = hdr.serialize) :
    m.recvAERORP E now chance' d = .ok (m.updateFromHello now chance' d.sender hdr) := by
  have hread : d.body.packet.removeHeader SecureHelloHeader.deserialize =
      .ok (sec, { d.body.packet with bytes := [] }) :=
    Datagram.removeHeader_body hbytes (SecureHelloHeader.reads sec)
  have hplain : (plaintextPacket ptext d.body.packet).removeHeader HelloHeader.deserialize =
      .ok (hdr, { d.body.packet with bytes := [] }) := by
    rw [plaintextPacket, hptext]
    exact Packet.removeHeader_of_reads (HelloHeader.reads hdr)
  rw [recvAERORP_of_type E now chance' d m (Datagram.messageType_of_bytes hbytes),
    if_neg (not_ignores hauth _), recvMessage, recvSecureHello, hcheck, hread, ok_bind,
    processSecureHello, if_neg (by simp), hplain]
  rfl

theorem recvAERORP_secureGSGeoLocation (hauth : m.authenticationStatus = .auth) (now : Time)
    {d : Datagram} {sec : SecureGSGeoLocationHeader} {ptext : Block GS_PACKET_SIZE}
    {hdr : GSGeoLocationHeader}
    (hbytes : d.packet.bytes = TypeHeader.serialize ⟨.secureGSGeoLocation, true⟩ ++ sec.serialize)
    (hcheck : m.secureCheck E chance' GS_PACKET_SIZE d.body.packet = (1, ptext))
    (hptext : ptext.toList = hdr.serialize) :
    m.recvAERORP E now chance' d = .ok (m.updateFromGSGeoLocation now hdr) := by
  have hread : d.body.packet.removeHeader SecureGSGeoLocationHeader.deserialize =
      .ok (sec, { d.body.packet with bytes := [] }) :=
    Datagram.removeHeader_body hbytes (SecureGSGeoLocationHeader.reads sec)
  have hplain : (plaintextPacket ptext d.body.packet).removeHeader
      GSGeoLocationHeader.deserialize = .ok (hdr, { d.body.packet with bytes := [] }) := by
    rw [plaintextPacket, hptext]
    exact Packet.removeHeader_of_reads (GSGeoLocationHeader.reads hdr)
  rw [recvAERORP_of_type E now chance' d m (Datagram.messageType_of_bytes hbytes),
    if_neg (not_ignores hauth _), recvMessage, recvSecureGSGeoLocation, hcheck, hread, ok_bind,
    processSecureGSGeoLocation, if_neg (by simp), hplain]
  rfl

variable (chance') in
theorem recvAERORP_sealedHello (now : Time) (hgcm : E.gcm.Inverts) (hm : Matches n m header)
    {d : Datagram} {hdr : HelloHeader} (huid : d.packet.uid = uid)
    (hbytes : d.packet.bytes =
      sealedBytes E chance n header uid .secureHello HELLO_PACKET_SIZE hdr.serialize) :
    m.recvAERORP E now chance' d = .ok (m.updateFromHello now chance' d.sender hdr) := by
  have hbody := Datagram.body_of_bytes hbytes
  have hcheck := secureCheck_sealed chance' hgcm hm (show d.body.packet.uid = uid from huid) hbody
  rw [sealedBytes, ← SecureHelloHeader.serialize_eq ⟨_, _⟩] at hbytes
  exact recvAERORP_secureHello hm.auth now hbytes hcheck
    (toList_copyData_self chance.byte hdr.length_serialize)

variable (chance') in
theorem recvAERORP_sealedGSGeoLocation (now : Time) (hgcm : E.gcm.Inverts)
    (hm : Matches n m header) {d : Datagram} {hdr : GSGeoLocationHeader}
    (huid : d.packet.uid = uid)
    (hbytes : d.packet.bytes =
      sealedBytes E chance n header uid .secureGSGeoLocation GS_PACKET_SIZE hdr.serialize) :
    m.recvAERORP E now chance' d = .ok (m.updateFromGSGeoLocation now hdr) := by
  have hbody := Datagram.body_of_bytes hbytes
  have hcheck := secureCheck_sealed chance' hgcm hm (show d.body.packet.uid = uid from huid) hbody
  rw [sealedBytes, ← SecureGSGeoLocationHeader.serialize_eq ⟨_, _⟩] at hbytes
  exact recvAERORP_secureGSGeoLocation hm.auth now hbytes hcheck
    (toList_copyData_self chance.byte hdr.length_serialize)

/-- A plain HELLO on a node that does not ignore it. -/
theorem recvAERORP_hello (hlet : ¬ m.Ignores .hello) (now : Time) {d : Datagram}
    {hdr : HelloHeader}
    (hbytes : d.packet.bytes = TypeHeader.serialize ⟨.hello, true⟩ ++ hdr.serialize) :
    m.recvAERORP E now chance' d = .ok (m.updateFromHello now chance' d.sender hdr) := by
  have hread : d.body.packet.removeHeader HelloHeader.deserialize =
      .ok (hdr, { d.body.packet with bytes := [] }) :=
    Datagram.removeHeader_body hbytes (HelloHeader.reads hdr)
  rw [recvAERORP_of_type E now chance' d m (Datagram.messageType_of_bytes hbytes),
    if_neg hlet, recvMessage, recvHello, hread]
  rfl

theorem recvAERORP_gsGeoLocation (hlet : ¬ m.Ignores .gsGeoLocation) (now : Time) {d : Datagram}
    {hdr : GSGeoLocationHeader}
    (hbytes : d.packet.bytes = TypeHeader.serialize ⟨.gsGeoLocation, true⟩ ++ hdr.serialize) :
    m.recvAERORP E now chance' d = .ok (m.updateFromGSGeoLocation now hdr) := by
  have hread : d.body.packet.removeHeader GSGeoLocationHeader.deserialize =
      .ok (hdr, { d.body.packet with bytes := [] }) :=
    Datagram.removeHeader_body hbytes (GSGeoLocationHeader.reads hdr)
  rw [recvAERORP_of_type E now chance' d m (Datagram.messageType_of_bytes hbytes),
    if_neg hlet, recvMessage, recvGSGeoLocation, hread]
  rfl

end

/-! ### Equal updates -/

/-- Every message of SendHello is a HELLO with a known sign code. -/
theorem mem_sendHello {outOfRange : ℚ → UInt32} {n : Node} {socket : SocketId} {bytes : Bytes}
    {dst : Ipv4Address} (h : Effect.sendTo socket bytes dst ∈ n.sendHello outOfRange) :
    ∃ hdr : HelloHeader, hdr.velSign ≤ 7 ∧
      bytes = TypeHeader.serialize ⟨.hello, true⟩ ++ hdr.serialize := by
  obtain ⟨j, -, hj⟩ := List.mem_map.mp h
  cases hj
  exact ⟨n.helloHeader outOfRange, helloVelocityFields_sign n.velocity, rfl⟩

theorem mem_sendGroundStationPackets {outOfRange : ℚ → UInt32} {god : GodGroundStation}
    {attackState : Bool} {nodes : List Ipv4Address} {n : Node} {socket : SocketId} {bytes : Bytes}
    {dst : Ipv4Address}
    (h : Effect.sendTo socket bytes dst ∈
      n.sendGroundStationPackets outOfRange god attackState nodes) :
    ∃ hdr : GSGeoLocationHeader,
      bytes = TypeHeader.serialize ⟨.gsGeoLocation, true⟩ ++ hdr.serialize := by
  obtain ⟨nodeadd, -, h⟩ := List.mem_flatMap.mp h
  obtain ⟨j, -, hj⟩ := List.mem_map.mp h
  cases hj
  exact ⟨_, rfl⟩

variable [Preorder β] [DecidableLT β] [DecidableEq β] [Zero β]

/-- In secure mode RouteOutput routes what the encryption leaves. -/
theorem packet_of_routeOutput {E : Env β} {now : Time} {chance : Chance} {p q p' : Packet}
    {header : Ipv4Header} {oif : Option NetDevice} {sockerr : SocketErrno} {n : Node}
    {r : RouteOutputResult} (hsec : n.securityState = true)
    (hq : n.securePacket E chance p header = .ok q)
    (h : n.routeOutput E now chance (some p) header oif sockerr = .ok r)
    (hp : r.packet = some p') : p'.bytes = q.bytes := by
  obtain ⟨p₀, hp₀, h⟩ := routeSecured_of_ok h
  rw [securedPacket, if_pos hsec] at hp₀
  simp only [hq] at hp₀
  cases hp₀
  obtain ⟨tag, hpacket⟩ := routePacket_packet h
  rw [hp] at hpacket
  cases hpacket
  rfl

/-- A node with the same key and the right associated data makes of a secure
advertisement the update that it makes of the plain one with security off. -/
theorem secure_update_eq {E : Env β} (hgcm : E.gcm.Inverts) {outOfRange : ℚ → UInt32}
    {god : GodGroundStation} {attackState : Bool} {nodes : List Ipv4Address} {n m : Node}
    {socket : SocketId} {bytes : Bytes} {dst : Ipv4Address}
    (hsend : Effect.sendTo socket bytes dst ∈ n.sendHello outOfRange ∨
      Effect.sendTo socket bytes dst ∈ n.sendGroundStationPackets outOfRange god attackState nodes)
    {sent now : Time} {chance chance' chance'' : Chance} {uid : UInt64} {deferred : Bool}
    {header : Ipv4Header} {oif : Option NetDevice} {sockerr : SocketErrno} {r : RouteOutputResult}
    {p' : Packet} (hsec : n.securityState = true)
    (hroute : n.routeOutput E sent chance (some ⟨bytes, uid, deferred⟩) header oif sockerr = .ok r)
    (hp : r.packet = some p') (hm : Matches n m header) {d : Datagram}
    (hbytes : d.packet.bytes = p'.bytes) (huid : d.packet.uid = uid) :
    ∃ update m', Effect.IsUpdate update ∧ m.recvAERORP E now chance' d = .ok (m', [update]) ∧
      { m with securityState := false }.recvAERORP E now chance''
          ⟨d.sender, ⟨bytes, uid, deferred⟩⟩ =
        .ok ({ m' with securityState := false }, [update]) := by
  rcases hsend with hsend | hsend
  · obtain ⟨hdr, hsign, rfl⟩ := mem_sendHello hsend
    have hq := securePacket_of_hello E chance n header uid deferred hdr
    have hsecure := recvAERORP_sealedHello chance' now hgcm hm huid
      (hbytes.trans (packet_of_routeOutput hsec hq hroute hp))
    have hplain : { m with securityState := false }.recvAERORP E now chance'' ⟨d.sender,
        ⟨TypeHeader.serialize ⟨.hello, true⟩ ++ hdr.serialize, uid, deferred⟩⟩ = _ :=
      recvAERORP_hello (not_ignores_of_insecure rfl _) now rfl
    rw [updateFromHello, helloVelocity_of_sign hsign chance'' chance'] at hplain
    refine ⟨_, _, ?_, hsecure, hplain⟩
    exact trivial
  · obtain ⟨hdr, rfl⟩ := mem_sendGroundStationPackets hsend
    have hq := securePacket_of_gsGeoLocation E chance n header uid deferred hdr
    have hsecure := recvAERORP_sealedGSGeoLocation chance' now hgcm hm huid
      (hbytes.trans (packet_of_routeOutput hsec hq hroute hp))
    have hplain : { m with securityState := false }.recvAERORP E now chance'' ⟨d.sender,
        ⟨TypeHeader.serialize ⟨.gsGeoLocation, true⟩ ++ hdr.serialize, uid, deferred⟩⟩ = _ :=
      recvAERORP_gsGeoLocation (not_ignores_of_insecure rfl _) now rfl
    refine ⟨_, _, ?_, hsecure, hplain⟩
    exact trivial

/-- Node 1 of the sample with the ground station's key. -/
def sender : Node := { Sample.secureNode 1 with sharedKey := Sample.fill _ [1] }

/-- The subnet's broadcast address, where node 1 sends its HELLO messages. -/
def toAll : Ipv4Header := ⟨.ofOctets 10 1 1 2, .ofOctets 10 1 1 255⟩

/-- The ground station after RouteInput of a message of node 1. -/
def receiver : Node :=
  { Sample.secureNode 0 with gcmAadToBeChecked := gcmAad sender.myAddress toAll.destination }

def helloBytes : Bytes :=
  TypeHeader.serialize ⟨.hello, true⟩ ++ (sender.helloHeader fun _ => 0).serialize

theorem helloBytes_sent :
    Effect.sendTo 1 helloBytes toAll.destination ∈ sender.sendHello fun _ => 0 := by
  decide +kernel

theorem secure_update_eq_sample : ∃ d update m', Effect.IsUpdate update ∧
    receiver.recvAERORP Sample.env 1 Sample.chance d = .ok (m', [update]) ∧
    { receiver with securityState := false }.recvAERORP Sample.env 1 Sample.chance
      ⟨d.sender, ⟨helloBytes, 5, false⟩⟩ = .ok ({ m' with securityState := false }, [update]) := by
  obtain ⟨r, hroute, hpacket⟩ : ∃ r, sender.routeOutput Sample.env 0 Sample.chance
      (some ⟨helloBytes, 5, false⟩) toAll none .errorNotError = .ok r ∧ r.packet.isSome = true :=
    exists_of_any (by decide +kernel)
  obtain ⟨p', hp⟩ := Option.isSome_iff_exists.mp hpacket
  have hmatches : Matches sender receiver toAll := ⟨by decide, rfl, rfl⟩
  have hsend : _ ∨ Effect.sendTo 1 helloBytes toAll.destination ∈ sender.sendGroundStationPackets
      (fun _ => 0) ⟨fun _ => ⟨0, 0, 0⟩, fun _ => ⟨0, 0, 0⟩, fun _ => ⟨0, 0, 0⟩,
        fun _ => ⟨0, 0, 0⟩⟩ false [] := .inl helloBytes_sent
  exact ⟨⟨sender.myAddress, { p' with uid := 5 }⟩,
    secure_update_eq Sample.gcm_inverts hsend rfl hroute hp hmatches rfl rfl⟩

end SAeroRP.SecureControl
