import SAeroRP.Routing.Authentication

/-! RecvAERORP: a control message arrives. Its type byte is checked, an
unauthenticated node in secure mode ignores the messages that carry positions,
and then the branch of the type runs. The source tests the type in one branch
after the other; the type does not change, so at most one of them runs. -/

namespace SAeroRP

open Library

namespace Node

variable {β : Type} (E : Env β)

/-! ### Table updates -/

def updateRouteToNeighbor (now : Time) (sender : Ipv4Address) (position velocity : Vector3D)
    (n : Node) : Node × List Effect :=
  ({ n with neighbors := n.neighbors.addEntry now sender position velocity },
    [.updateRouteToNeighbor sender position velocity])

def updateRouteToNodes (now : Time) (node : Ipv4Address) (position velocity : Vector3D) (n : Node) :
    Node × List Effect :=
  ({ n with nodesPosition := n.nodesPosition.addEntry now node position },
    [.updateRouteToNodes node position velocity])

/-! ### Contents -/

def helloPosition (hdr : HelloHeader) : Vector3D :=
  ⟨hdr.originPosx.toNat, hdr.originPosy.toNat, hdr.originPosz.toNat⟩

/-- The sign code says which components are negative; no variable is assigned for
a code above 7. -/
def helloVelocity (chance : Chance) (hdr : HelloHeader) : Vector3D :=
  let x : ℚ := hdr.originVelx.toNat
  let y : ℚ := hdr.originVely.toNat
  let z : ℚ := hdr.originVelz.toNat
  if hdr.velSign = 0 then ⟨x, y, z⟩
  else if hdr.velSign = 1 then ⟨-x, -y, -z⟩
  else if hdr.velSign = 2 then ⟨-x, -y, z⟩
  else if hdr.velSign = 3 then ⟨-x, y, -z⟩
  else if hdr.velSign = 4 then ⟨x, -y, -z⟩
  else if hdr.velSign = 5 then ⟨-x, y, z⟩
  else if hdr.velSign = 6 then ⟨x, -y, z⟩
  else if hdr.velSign = 7 then ⟨x, y, -z⟩
  else chance.velocity

/-- The velocity of a known sign code depends on the message alone. -/
theorem helloVelocity_of_sign {hdr : HelloHeader} (h : hdr.velSign ≤ 7) (chance chance' : Chance) :
    helloVelocity chance hdr = helloVelocity chance' hdr := by
  have hle : hdr.velSign.toNat ≤ 7 := UInt8.le_iff_toNat_le.mp h
  have hcode : ∃ k ≤ 7, hdr.velSign = UInt8.ofNat k := ⟨_, hle, UInt8.ofNat_toNat.symm⟩
  obtain ⟨k, hk, hsign⟩ := hcode
  unfold helloVelocity
  rw [hsign]
  interval_cases k <;> rfl

def updateFromHello (now : Time) (chance : Chance) (sender : Ipv4Address) (hdr : HelloHeader)
    (n : Node) : Node × List Effect :=
  n.updateRouteToNeighbor now sender (helloPosition hdr) (helloVelocity chance hdr)

def updateFromGSGeoLocation (now : Time) (hdr : GSGeoLocationHeader) (n : Node) :
    Node × List Effect :=
  n.updateRouteToNodes now hdr.node ⟨hdr.nodePosx.toNat, hdr.nodePosy.toNat, hdr.nodePosz.toNat⟩
    ⟨hdr.nodeVelocityx.toNat, hdr.nodeVelocityy.toNat, hdr.nodeVelocityz.toNat⟩

/-! ### Branches -/

def recvHello (now : Time) (chance : Chance) (d : Datagram) (n : Node) :
    Except Fault (Node × List Effect) := do
  let (hdr, _) ← d.packet.removeHeader HelloHeader.deserialize
  return n.updateFromHello now chance d.sender hdr

def recvGSGeoLocation (now : Time) (d : Datagram) (n : Node) :
    Except Fault (Node × List Effect) := do
  let (hdr, _) ← d.packet.removeHeader GSGeoLocationHeader.deserialize
  return n.updateFromGSGeoLocation now hdr

/-- The tag check of a secure message that carries `size` encrypted bytes, after
its type byte: the result and the plaintext. -/
def secureCheck (chance : Chance) (size : ℕ) (p : Packet) (n : Node) : ℤ × Block size :=
  let tmessage := Block.copyData chance.byte (size + TAG_SIZE) p.bytes
  let cipher := tmessage.slice 0 size (by omega)
  let tag := tmessage.slice size TAG_SIZE le_rfl
  GCMConverter.dencryption E.gcm cipher n.gcmAadToBeChecked tag n.sharedKey (gcmIv p.uid)

/-- The plaintext as a packet a header can be read from. -/
def plaintextPacket {size : ℕ} (ptext : Block size) (p : Packet) : Packet :=
  { p with bytes := ptext.toList }

/-- The branch of a SECURE_HELLO, for the outcome of its tag check. -/
def processSecureHello (now : Time) (chance : Chance) (d : Datagram)
    (checked : ℤ × Block HELLO_PACKET_SIZE) (n : Node) : Except Fault (Node × List Effect) :=
  if checked.1 ≠ 1 then .ok (n, [])
  else do
    let (hdr, _) ← (plaintextPacket checked.2 d.packet).removeHeader HelloHeader.deserialize
    return n.updateFromHello now chance d.sender hdr

def recvSecureHello (now : Time) (chance : Chance) (d : Datagram) (n : Node) :
    Except Fault (Node × List Effect) := do
  let checked := n.secureCheck E chance HELLO_PACKET_SIZE d.packet
  let _ ← d.packet.removeHeader SecureHelloHeader.deserialize
  n.processSecureHello now chance d checked

/-- The branch of a SECURE_GSGEOLOCATION, for the outcome of its tag check. -/
def processSecureGSGeoLocation (now : Time) (d : Datagram) (checked : ℤ × Block GS_PACKET_SIZE)
    (n : Node) : Except Fault (Node × List Effect) :=
  if checked.1 ≠ 1 then .ok (n, [])
  else do
    let (hdr, _) ← (plaintextPacket checked.2 d.packet).removeHeader
      GSGeoLocationHeader.deserialize
    return n.updateFromGSGeoLocation now hdr

def recvSecureGSGeoLocation (now : Time) (chance : Chance) (d : Datagram) (n : Node) :
    Except Fault (Node × List Effect) := do
  let checked := n.secureCheck E chance GS_PACKET_SIZE d.packet
  let _ ← d.packet.removeHeader SecureGSGeoLocationHeader.deserialize
  n.processSecureGSGeoLocation now d checked

/-! ### Dispatch -/

/-- The types an unauthenticated node in secure mode ignores. -/
def CarriesPosition (type : MessageType) : Prop :=
  type = .hello ∨ type = .gsGeoLocation ∨ type = .secureHello ∨ type = .secureGSGeoLocation

instance (type : MessageType) : Decidable (CarriesPosition type) :=
  inferInstanceAs (Decidable (_ ∨ _ ∨ _ ∨ _))

/-- The branch of a type, for the message without its type byte. -/
def recvMessage (now : Time) (chance : Chance) (type : MessageType) (d : Datagram) (n : Node) :
    Except Fault (Node × List Effect) :=
  match type with
  | .authenticationRequest => n.recvAuthenticationRequest E now chance d
  | .authenticationReply => n.recvAuthenticationReply E now d
  | .hello => n.recvHello now chance d
  | .secureHello => n.recvSecureHello E now chance d
  | .secureGSGeoLocation => n.recvSecureGSGeoLocation E now chance d
  | .gsGeoLocation => n.recvGSGeoLocation now d
  | .gsTopology => .ok (n, [])

/-- RecvAERORP. -/
def recvAERORP (now : Time) (chance : Chance) (d : Datagram) (n : Node) :
    Except Fault (Node × List Effect) := do
  let (tHeader, packet) ← d.packet.removeHeader (TypeHeader.deserialize ⟨.hello, true⟩)
  if ¬ tHeader.valid then return (n, [])
  else if n.authenticationStatus = .unauth ∧ n.securityState ∧ CarriesPosition tHeader.type then
    return (n, [])
  else n.recvMessage E now chance tHeader.type { d with packet }

end Node

/-! ### Inversion -/

namespace Datagram

/-- The type of a message whose type byte is known. -/
def messageType (d : Datagram) : Option MessageType := d.packet.bytes.head?.bind MessageType.ofU8

/-- The message without its type byte. -/
def body (d : Datagram) : Datagram :=
  { d with packet := { d.packet with bytes := d.packet.bytes.tail } }

/-- The header of an AUTHENTICATIONREQUEST message. -/
def request (d : Datagram) : Option AuthenticationRequestHeader :=
  if d.messageType = some .authenticationRequest then
    (AuthenticationRequestHeader.deserialize d.body.packet.bytes).map Prod.fst
  else none

/-- The header of an AUTHENTICATIONREPLY message. -/
def reply (d : Datagram) : Option AuthenticationReplyHeader :=
  if d.messageType = some .authenticationReply then
    (AuthenticationReplyHeader.deserialize d.body.packet.bytes).map Prod.fst
  else none

section
variable {d : Datagram} {type : MessageType} {bs : Bytes}

theorem messageType_of_bytes (h : d.packet.bytes = TypeHeader.serialize ⟨type, true⟩ ++ bs) :
    d.messageType = some type := by
  simp [messageType, h, TypeHeader.serialize, Wire.writeU8]

theorem body_of_bytes (h : d.packet.bytes = TypeHeader.serialize ⟨type, true⟩ ++ bs) :
    d.body.packet.bytes = bs := by
  simp [body, h, TypeHeader.serialize, Wire.writeU8]

/-- The header after the type is read to the end of the packet. -/
theorem removeHeader_body {α : Type} {r : Reader α} {a : α}
    (h : d.packet.bytes = TypeHeader.serialize ⟨type, true⟩ ++ bs) (hr : Reader.Reads r bs a) :
    d.body.packet.removeHeader r = .ok (a, { d.body.packet with bytes := [] }) := by
  apply Packet.removeHeader_of_reads
  rwa [body_of_bytes h]

theorem request_of_bytes {hdr : AuthenticationRequestHeader}
    (h : d.packet.bytes = TypeHeader.serialize ⟨.authenticationRequest, true⟩ ++ hdr.serialize) :
    d.request = some hdr := by
  rw [request, if_pos (messageType_of_bytes h), body_of_bytes h,
    AuthenticationRequestHeader.reads hdr |>.run_nil]
  rfl

theorem reply_of_bytes {hdr : AuthenticationReplyHeader}
    (h : d.packet.bytes = TypeHeader.serialize ⟨.authenticationReply, true⟩ ++ hdr.serialize) :
    d.reply = some hdr := by
  rw [reply, if_pos (messageType_of_bytes h), body_of_bytes h,
    AuthenticationReplyHeader.reads hdr |>.run_nil]
  rfl

/-- The header read off the message after its type byte. -/
theorem request_of_removeHeader {hdr : AuthenticationRequestHeader} {p : Packet}
    (ht : d.messageType = some .authenticationRequest)
    (h : d.body.packet.removeHeader AuthenticationRequestHeader.deserialize = .ok (hdr, p)) :
    d.request = some hdr := by
  unfold Packet.removeHeader at h
  split at h <;> cases h
  rename_i heq
  rw [request, if_pos ht, heq]
  rfl

theorem reply_of_removeHeader {hdr : AuthenticationReplyHeader} {p : Packet}
    (ht : d.messageType = some .authenticationReply)
    (h : d.body.packet.removeHeader AuthenticationReplyHeader.deserialize = .ok (hdr, p)) :
    d.reply = some hdr := by
  unfold Packet.removeHeader at h
  split at h <;> cases h
  rename_i heq
  rw [reply, if_pos ht, heq]
  rfl

theorem messageType_of_reply {hdr : AuthenticationReplyHeader} (h : d.reply = some hdr) :
    d.messageType = some .authenticationReply := by
  unfold reply at h
  split_ifs at h with ht
  exact ht

end

end Datagram

namespace Node

variable {β : Type} (E : Env β) (now : Time) (chance : Chance) (d : Datagram) (n : Node)

/-- The early gate: an unauthenticated node in secure mode ignores the type. -/
def Ignores (n : Node) (type : MessageType) : Prop :=
  n.authenticationStatus = .unauth ∧ n.securityState = true ∧ CarriesPosition type

instance (n : Node) (type : MessageType) : Decidable (n.Ignores type) :=
  inferInstanceAs (Decidable (_ ∧ _ ∧ _))

theorem recvAERORP_of_type {type : MessageType} (h : d.messageType = some type) :
    n.recvAERORP E now chance d =
      if n.Ignores type then .ok (n, []) else n.recvMessage E now chance type d.body := by
  obtain ⟨sender, bytes, uid, tag⟩ := d
  cases bytes with
  | nil => cases h
  | cons b rest =>
    have hb : MessageType.ofU8 b = some type := h
    simp only [recvAERORP, Packet.removeHeader, TypeHeader.deserialize_cons, hb]
    rfl

theorem recvAERORP_of_none (h : d.messageType = none) :
    n.recvAERORP E now chance d = .ok (n, []) ∨
      n.recvAERORP E now chance d = .error .pastEnd := by
  obtain ⟨sender, bytes, uid, tag⟩ := d
  cases bytes with
  | nil => exact .inr rfl
  | cons b rest =>
    left
    have hb : MessageType.ofU8 b = none := h
    simp only [recvAERORP, Packet.removeHeader, TypeHeader.deserialize_cons, hb]
    rfl

variable {E} {now} {chance} {d} {n} in
/-- A call either changes nothing or is the branch of a type that is let in. -/
theorem recvAERORP_ok {m : Node} {es : List Effect}
    (h : n.recvAERORP E now chance d = .ok (m, es)) :
    m = n ∧ es = [] ∨ ∃ type, d.messageType = some type ∧ ¬ n.Ignores type ∧
      n.recvMessage E now chance type d.body = .ok (m, es) := by
  cases ht : d.messageType with
  | none =>
    rcases recvAERORP_of_none E now chance d n ht with h' | h' <;> rw [h'] at h
    · cases h
      exact .inl ⟨rfl, rfl⟩
    · cases h
  | some type =>
    rw [recvAERORP_of_type E now chance d n ht] at h
    split_ifs at h with hg
    · cases h
      exact .inl ⟨rfl, rfl⟩
    · exact .inr ⟨type, rfl, hg, h⟩

variable {E} {now} {chance} {d} {n} in
/-- What a call puts out: nothing, one update of a table, or the answer to a valid
request. -/
theorem recvAERORP_effects {m : Node} {es : List Effect}
    (h : n.recvAERORP E now chance d = .ok (m, es)) :
    es = [] ∨ (∃ sender position velocity, es = [.updateRouteToNeighbor sender position velocity]) ∨
      (∃ node position velocity, es = [.updateRouteToNodes node position velocity]) ∨
      ∃ hdr identification key, d.request = some hdr ∧
        (E.ssl.d2iX509 hdr.certificate).bind X509.pubkey = some key ∧
        n.requestValid E now hdr = .ok true ∧
        n.sendAuthenticationReplyPacket E now chance d.sender identification hdr.randomNo key =
          .ok es := by
  rcases recvAERORP_ok h with ⟨-, hes⟩ | ⟨type, ht, -, h⟩
  · exact .inl hes
  cases type with
  | gsTopology =>
    cases h
    exact .inl rfl
  | hello =>
    obtain ⟨⟨hdr, rest⟩, -, h⟩ := bind_eq_ok.mp h
    cases h
    exact .inr (.inl ⟨_, _, _, rfl⟩)
  | gsGeoLocation =>
    obtain ⟨⟨hdr, rest⟩, -, h⟩ := bind_eq_ok.mp h
    cases h
    exact .inr (.inr (.inl ⟨_, _, _, rfl⟩))
  | authenticationRequest =>
    obtain ⟨⟨hdr, rest⟩, hread, h⟩ := bind_eq_ok.mp h
    obtain ⟨-, hes | ⟨identification, key, hkey, hvalid, hsend⟩⟩ := processRequest_ok h
    · exact .inl hes
    · exact .inr (.inr (.inr ⟨hdr, identification, key, Datagram.request_of_removeHeader ht hread,
        hkey, hvalid, hsend⟩))
  | authenticationReply =>
    obtain ⟨⟨hdr, rest⟩, -, h⟩ := bind_eq_ok.mp h
    exact .inl (processReply_ok h).1
  | secureHello =>
    obtain ⟨_, -, h⟩ := bind_eq_ok.mp h
    unfold processSecureHello at h
    split_ifs at h
    · cases h
      exact .inl rfl
    · obtain ⟨⟨hdr, rest⟩, -, h⟩ := bind_eq_ok.mp h
      cases h
      exact .inr (.inl ⟨_, _, _, rfl⟩)
  | secureGSGeoLocation =>
    obtain ⟨_, -, h⟩ := bind_eq_ok.mp h
    unfold processSecureGSGeoLocation at h
    split_ifs at h
    · cases h
      exact .inl rfl
    · obtain ⟨⟨hdr, rest⟩, -, h⟩ := bind_eq_ok.mp h
      cases h
      exact .inr (.inr (.inl ⟨_, _, _, rfl⟩))

/-- A reply is processed whatever the state of the node. -/
theorem recvAERORP_of_reply {hdr : AuthenticationReplyHeader} (h : d.reply = some hdr) :
    n.recvAERORP E now chance d = n.processReply E now hdr := by
  have ht := Datagram.messageType_of_reply h
  have hgate : ¬ n.Ignores .authenticationReply := by simp [Ignores, CarriesPosition]
  rw [recvAERORP_of_type E now chance d n ht, if_neg hgate]
  rw [Datagram.reply, if_pos ht, Option.map_eq_some_iff] at h
  obtain ⟨⟨hdr', rest⟩, hread, rfl⟩ := h
  simp only [recvMessage, recvAuthenticationReply, Packet.removeHeader, hread]
  rfl

end Node

end SAeroRP
