import SAeroRP.Routing.Forwarding

/-! RouteOutput: a packet of the node's own asks for a route. In secure mode the
packet is first encrypted, according to its size alone: a HELLO or GSGEOLOCATION
message becomes the corresponding secure message, and 1000 bytes of data become
1016 bytes of ciphertext and tag in a new packet. -/

namespace SAeroRP

open Library

structure RouteOutputResult where
  route : Option Ipv4Route
  sockerr : SocketErrno
  packet : Option Packet
  node : Node

namespace RouteOutputResult

/-- The gateway of a route over device 1. -/
def nextHop (r : RouteOutputResult) : Option Ipv4Address :=
  r.route.bind fun route => if route.outputDevice = some 1 then some route.gateway else none

/-- The packet comes back to RouteInput over the loopback device, tagged. -/
def Deferred (r : RouteOutputResult) : Prop :=
  (∃ route, r.route = some route ∧ route.outputDevice = some 0) ∧
    ∃ p, r.packet = some p ∧ p.deferredTag = true

theorem Deferred.nextHop {r : RouteOutputResult} (h : r.Deferred) : r.nextHop = none := by
  obtain ⟨⟨route, hroute, hdevice⟩, -⟩ := h
  simp [RouteOutputResult.nextHop, hroute, hdevice]

end RouteOutputResult

namespace Node

/-! ### Encryption -/

section Encryption
variable {β : Type} (E : Env β) (chance : Chance) (n : Node)

/-- A packet of the size of a HELLO message. -/
def encryptHello (aad : Block AAD_LENGTH) (iv : Block IV_LENGTH) (p : Packet) :
    Except Fault Packet := do
  if p.getSize = HELLO_PACKET_SIZE + 1 then
    let (_, p) ← p.removeHeader (TypeHeader.deserialize ⟨.hello, true⟩)
    let pText := Block.copyData chance.byte HELLO_PACKET_SIZE p.bytes
    let (cipher, tag) := GCMConverter.encryption E.gcm pText aad n.sharedKey iv
    let (_, p) ← p.removeHeader HelloHeader.deserialize
    let p := p.addHeader (SecureHelloHeader.serialize ⟨cipher, tag⟩)
    return p.addHeader (TypeHeader.serialize ⟨.secureHello, true⟩)
  else return p

/-- A packet of the size of a GSGEOLOCATION message. -/
def encryptGSGeoLocation (aad : Block AAD_LENGTH) (iv : Block IV_LENGTH) (p : Packet) :
    Except Fault Packet := do
  if p.getSize = GS_PACKET_SIZE + 1 then
    let (_, p) ← p.removeHeader (TypeHeader.deserialize ⟨.gsGeoLocation, true⟩)
    let pText := Block.copyData chance.byte GS_PACKET_SIZE p.bytes
    let (cipher, tag) := GCMConverter.encryption E.gcm pText aad n.sharedKey iv
    let (_, p) ← p.removeHeader GSGeoLocationHeader.deserialize
    let p := p.addHeader (SecureGSGeoLocationHeader.serialize ⟨cipher, tag⟩)
    return p.addHeader (TypeHeader.serialize ⟨.secureGSGeoLocation, true⟩)
  else return p

/-- A packet of the size of application data. The packet object is assigned a
newly created one, and takes over its uid and tags. -/
def encryptData (aad : Block AAD_LENGTH) (iv : Block IV_LENGTH) (p : Packet) : Packet :=
  if p.getSize = PACKET_DATA_LEN_BEFORE_ENCRYPTON then
    let pText := Block.copyData chance.byte PACKET_DATA_LEN_BEFORE_ENCRYPTON p.bytes
    let (cipher, tag) := GCMConverter.encryption E.gcm pText aad n.sharedKey iv
    let totalSecurePacket := cipher.toList ++ tag.toList
    ⟨totalSecurePacket, chance.freshUid, false⟩
  else p

def securePacket (p : Packet) (header : Ipv4Header) : Except Fault Packet := do
  let aad := gcmAad n.myAddress header.destination
  let iv := gcmIv p.uid
  let p ← n.encryptHello E chance aad iv p
  let p ← n.encryptGSGeoLocation E chance aad iv p
  return n.encryptData E chance aad iv p

/-- The first part of RouteOutput. In secure mode the packet is dereferenced. -/
def securedPacket (p : Option Packet) (header : Ipv4Header) : Except Fault (Option Packet) :=
  if n.securityState then
    match p with
    | none => .error .nullPointer
    | some p => some <$> n.securePacket E chance p header
  else .ok p

end Encryption

/-! ### Routes -/

/-- The first address whose interface has the device, else the unset address. -/
def sourceOn (oif : NetDevice) (n : Node) :
    List (SocketId × Ipv4InterfaceAddress) → Except Fault Ipv4Address
  | [] => .ok Ipv4Address.unset
  | j :: rest =>
    match n.ipv4.getInterfaceForAddress j.2.localAddress with
    | none => .error .assertion
    | some interface => if oif = interface then .ok j.2.localAddress else sourceOn oif n rest

def loopbackSource (oif : Option NetDevice) (n : Node) : Except Fault Ipv4Address :=
  match oif, n.socketAddresses.toList with
  | some oif, l => n.sourceOn oif l
  | none, [] => .error .endIterator
  | none, j :: _ => .ok j.2.localAddress

/-- LoopbackRoute. -/
def loopbackRoute (header : Ipv4Header) (oif : Option NetDevice) (n : Node) :
    Except Fault Ipv4Route := do
  let source ← n.loopbackSource oif
  -- the assertion on the source address
  if source = Ipv4Address.unset then throw .assertion
  else return ⟨header.destination, source, Ipv4Address.loopback, some 0⟩

variable {β : Type} [Preorder β] [DecidableLT β] [DecidableEq β] [Zero β]

/-- The direct route over the authentication interface, between the ground
station and any node. -/
def authRoute (dst : Ipv4Address) (n : Node) : Ipv4Route :=
  ⟨dst, n.authAddress, dst, some 2⟩

/-- The part of RouteOutput that looks for a next hop on the data interface. -/
def routeUnicast (E : Env β) (now : Time) (p : Packet) (header : Ipv4Header)
    (oif : Option NetDevice) (n : Node) : Except Fault RouteOutputResult :=
  match n.outputNextHop E now header.destination with
  | (none, n) => do
    -- the packet comes back to RouteInput over the loopback device
    let route ← n.loopbackRoute header oif
    return ⟨some route, .errorNotError, some { p with deferredTag := true }, n⟩
  | (some nextHop, n) =>
    if oif ≠ none ∧ oif ≠ some 1 then .ok ⟨none, .errorNoRouteToHost, some p, n⟩
    else .ok ⟨some ⟨header.destination, routeSource n.myAddress header, nextHop, some 1⟩,
      .errorNotError, some p, n⟩

/-- The part of RouteOutput that chooses among the interfaces, for the addresses of the data
and the authentication interface. -/
def routeAmong (E : Env β) (now : Time) (p : Packet) (header : Ipv4Header)
    (oif : Option NetDevice) (n : Node) (data auth : Ipv4InterfaceAddress) :
    Except Fault RouteOutputResult :=
  if header.destination = data.broadcast then do
    let route ← n.loopbackRoute header oif
    return ⟨some route, .errorNotError, some p, n⟩
  else if header.destination = Ipv4Address.groundStation ∧ n.securityState then
    .ok ⟨some (n.authRoute header.destination), .errorNotError, some p, n⟩
  else if auth.localAddress = Ipv4Address.groundStation ∧ n.securityState ∧
      header.destination ≠ auth.broadcast then
    .ok ⟨some (n.authRoute header.destination), .errorNotError, some p, n⟩
  else n.routeUnicast E now p header oif

/-- RouteOutput after the encryption, for a packet. -/
def routePacket (E : Env β) (now : Time) (p : Packet) (header : Ipv4Header)
    (oif : Option NetDevice) (n : Node) : Except Fault RouteOutputResult :=
  if n.socketAddresses.isEmpty then .ok ⟨none, .errorNoRouteToHost, some p, n⟩
  else do
    let data ← n.ipv4.getAddress 1
    let auth ← n.ipv4.getAddress 2
    n.routeAmong E now p header oif data auth

/-- RouteOutput after the encryption. -/
def routeSecured (E : Env β) (now : Time) (p : Option Packet) (header : Ipv4Header)
    (oif : Option NetDevice) (sockerr : SocketErrno) (n : Node) : Except Fault RouteOutputResult :=
  match p with
  | none => do
    let route ← n.loopbackRoute header oif
    return ⟨some route, sockerr, none, n⟩
  | some p => n.routePacket E now p header oif

/-- RouteOutput. In secure mode the address of the data interface is asked for first. -/
def routeOutput (E : Env β) (now : Time) (chance : Chance) (p : Option Packet)
    (header : Ipv4Header) (oif : Option NetDevice) (sockerr : SocketErrno) (n : Node) :
    Except Fault RouteOutputResult := do
  if n.securityState then
    let _ ← n.ipv4.getAddress 1
  let p ← n.securedPacket E chance p header
  n.routeSecured E now p header oif sockerr

/-! ### Facts -/

theorem outputDevice_of_loopbackRoute {header : Ipv4Header} {oif : Option NetDevice} {n : Node}
    {route : Ipv4Route} (h : n.loopbackRoute header oif = .ok route) :
    route.outputDevice = some 0 := by
  unfold loopbackRoute at h
  obtain ⟨source, -, h⟩ := bind_eq_ok.mp h
  split_ifs at h
  cases h
  rfl

/-- RouteOutput looks for a next hop on the data interface: the destination is
not the broadcast address, and neither end is the ground station in secure mode. -/
structure RoutesUnicast (header : Ipv4Header) (n : Node) : Prop where
  interfaces : n.socketAddresses.isEmpty = false
  notBroadcast : header.destination ≠ (n.ipv4.address 1).broadcast
  notToGroundStation : ¬ (header.destination = Ipv4Address.groundStation ∧ n.securityState = true)
  notFromGroundStation : ¬ (n.authAddress = Ipv4Address.groundStation ∧ n.securityState = true ∧
    header.destination ≠ (n.ipv4.address 2).broadcast)

instance (header : Ipv4Header) (n : Node) : Decidable (n.RoutesUnicast header) :=
  decidable_of_iff (_ ∧ _ ∧ _ ∧ _) ⟨fun h => ⟨h.1, h.2.1, h.2.2.1, h.2.2.2⟩,
    fun h => ⟨h.interfaces, h.notBroadcast, h.notToGroundStation, h.notFromGroundStation⟩⟩

section
variable {E : Env β} {now : Time} {p : Packet} {header : Ipv4Header} {oif : Option NetDevice}
  {n : Node} {r : RouteOutputResult}

/-- With a socket the addresses of both interfaces are asked for, and both must be there. -/
theorem routePacket_of_sockets (h : n.socketAddresses.isEmpty = false) :
    n.routePacket E now p header oif =
      if n.ipv4.HasAddress 1 ∧ n.ipv4.HasAddress 2 then
        n.routeAmong E now p header oif (n.ipv4.address 1) (n.ipv4.address 2)
      else .error .assertion := by
  rw [routePacket, if_neg (by simp [h]), Ipv4.getAddress_eq, Ipv4.getAddress_eq]
  by_cases hdata : n.ipv4.HasAddress 1
  · by_cases hauth : n.ipv4.HasAddress 2
    · rw [if_pos hdata, if_pos hauth, if_pos ⟨hdata, hauth⟩, ok_bind, ok_bind]
    · rw [if_pos hdata, if_neg hauth, if_neg (not_and_of_not_right _ hauth), ok_bind, error_bind]
  · rw [if_neg hdata, if_neg (not_and_of_not_left _ hdata), error_bind]

theorem routeAmong_of_unicast (h : n.RoutesUnicast header) :
    n.routeAmong E now p header oif (n.ipv4.address 1) (n.ipv4.address 2) =
      n.routeUnicast E now p header oif := by
  unfold routeAmong
  rw [if_neg h.notBroadcast, if_neg h.notToGroundStation]
  exact if_neg h.notFromGroundStation

theorem routePacket_of_unicast (hdata : n.ipv4.HasAddress 1) (hauth : n.ipv4.HasAddress 2)
    (h : n.RoutesUnicast header) :
    n.routePacket E now p header oif = n.routeUnicast E now p header oif := by
  rw [routePacket_of_sockets h.interfaces, if_pos ⟨hdata, hauth⟩, routeAmong_of_unicast h]

/-- A call that comes back has found no socket, or both addresses. -/
theorem routeAmong_of_ok (h : n.routePacket E now p header oif = .ok r) :
    n.socketAddresses.isEmpty = true ∧ r = ⟨none, .errorNoRouteToHost, some p, n⟩ ∨
      n.socketAddresses.isEmpty = false ∧
        n.routeAmong E now p header oif (n.ipv4.address 1) (n.ipv4.address 2) = .ok r := by
  cases hsock : n.socketAddresses.isEmpty with
  | true =>
    rw [routePacket, if_pos hsock] at h
    exact .inl ⟨rfl, (Except.ok.inj h).symm⟩
  | false =>
    rw [routePacket_of_sockets hsock] at h
    split_ifs at h
    exact .inr ⟨rfl, h⟩

theorem routeUnicast_of_routePacket (hunicast : n.RoutesUnicast header)
    (h : n.routePacket E now p header oif = .ok r) :
    n.routeUnicast E now p header oif = .ok r := by
  rcases routeAmong_of_ok h with ⟨hsock, -⟩ | ⟨-, h⟩
  · exact absurd (hunicast.interfaces.symm.trans hsock) Bool.false_ne_true
  · rwa [routeAmong_of_unicast hunicast] at h

/-- Either a next hop is looked for, or the node stays as it is and no route over
the data interface is returned. -/
theorem routePacket_ok (h : n.routePacket E now p header oif = .ok r) :
    n.RoutesUnicast header ∧ n.routeUnicast E now p header oif = .ok r ∨
      r.node = n ∧ r.packet = some p ∧ r.nextHop = none := by
  rcases routeAmong_of_ok h with ⟨-, rfl⟩ | ⟨hsock, h⟩
  · exact .inr ⟨rfl, rfl, rfl⟩
  unfold routeAmong at h
  split_ifs at h with hbc hto hfrom
  · obtain ⟨route, hroute, h⟩ := bind_eq_ok.mp h
    cases h
    refine .inr ⟨rfl, rfl, ?_⟩
    simp [RouteOutputResult.nextHop, outputDevice_of_loopbackRoute hroute]
  · cases h
    exact .inr ⟨rfl, rfl, rfl⟩
  · cases h
    exact .inr ⟨rfl, rfl, rfl⟩
  · exact .inl ⟨⟨by simpa using hsock, hbc, hto, hfrom⟩, h⟩

/-- The route, if it is one over the data interface, has the next hop that was
decided on, and without a next hop the packet is tagged for deferral. -/
theorem routeUnicast_ok (h : n.routeUnicast E now p header oif = .ok r) :
    r.node = { n with neighbors := n.neighbors.purge now } ∧
      ((n.outputNextHop E now header.destination).1 = none ∧ r.Deferred ∧
          r.packet = some { p with deferredTag := true } ∨
        (n.outputNextHop E now header.destination).1 ≠ none ∧ ¬ r.Deferred ∧ r.packet = some p ∧
          (r.nextHop = if oif ≠ none ∧ oif ≠ some 1 then none
            else (n.outputNextHop E now header.destination).1)) := by
  have hnode := outputNextHop_node E now header.destination n
  unfold routeUnicast at h
  split at h <;> rename_i m heq <;> rw [heq] at hnode ⊢
  · obtain ⟨route, hroute, h⟩ := bind_eq_ok.mp h
    cases h
    have hdevice := outputDevice_of_loopbackRoute hroute
    exact ⟨hnode, .inl ⟨rfl, ⟨⟨route, rfl, hdevice⟩, _, rfl, rfl⟩, rfl⟩⟩
  · split_ifs at h with hoif
    · cases h
      exact ⟨hnode, .inr ⟨by simp, by simp [RouteOutputResult.Deferred], rfl,
        by rw [if_pos hoif]; rfl⟩⟩
    · cases h
      exact ⟨hnode, .inr ⟨by simp, by simp [RouteOutputResult.Deferred], rfl,
        by rw [if_neg hoif]; rfl⟩⟩

theorem routeUnicast_of_nextHop {nextHop : Ipv4Address}
    (h : (n.outputNextHop E now header.destination).1 = some nextHop) :
    n.routeUnicast E now p header none =
      .ok ⟨some ⟨header.destination, routeSource n.myAddress header, nextHop, some 1⟩,
        .errorNotError, some p, { n with neighbors := n.neighbors.purge now }⟩ := by
  have hpair : n.outputNextHop E now header.destination =
      (some nextHop, { n with neighbors := n.neighbors.purge now }) :=
    Prod.ext h (outputNextHop_node E now header.destination n)
  rw [routeUnicast, hpair]
  rfl

omit [Preorder β] [DecidableLT β] [DecidableEq β] [Zero β] in
theorem securedPacket_eq_none {chance : Chance} {p p' : Option Packet}
    (h : n.securedPacket E chance p header = .ok p') : p' = none ↔ p = none := by
  unfold securedPacket at h
  split_ifs at h
  · split at h
    · cases h
    · rename_i p
      cases hp : n.securePacket E chance p header with
      | error e =>
        rw [hp] at h
        cases h
      | ok q =>
        rw [hp] at h
        cases h
        simp
  · cases h
    rfl

theorem routeOutput_of_hasAddress {chance : Chance} {p : Option Packet} {sockerr : SocketErrno}
    (h : n.securityState = true → n.ipv4.HasAddress 1) :
    n.routeOutput E now chance p header oif sockerr =
      n.securedPacket E chance p header >>= fun p => n.routeSecured E now p header oif sockerr := by
  rw [routeOutput, Ipv4.getAddress_eq]
  by_cases hsec : n.securityState = true
  · rw [if_pos hsec, if_pos (h hsec)]
    rfl
  · rw [if_neg hsec]

theorem routeOutput_of_noAddress {chance : Chance} {p : Option Packet} {sockerr : SocketErrno}
    (hsec : n.securityState = true) (h : ¬ n.ipv4.HasAddress 1) :
    n.routeOutput E now chance p header oif sockerr = .error .assertion := by
  rw [routeOutput, Ipv4.getAddress_eq, if_pos hsec, if_neg h]
  rfl

theorem hasAddress_of_routeOutput {chance : Chance} {p : Option Packet} {sockerr : SocketErrno}
    (h : n.routeOutput E now chance p header oif sockerr = .ok r) (hsec : n.securityState = true) :
    n.ipv4.HasAddress 1 := by
  by_contra hno
  rw [routeOutput_of_noAddress hsec hno] at h
  cases h

/-- A call that comes back has routed the packet, as it was or encrypted. -/
theorem routeSecured_of_ok {chance : Chance} {p : Option Packet} {sockerr : SocketErrno}
    (h : n.routeOutput E now chance p header oif sockerr = .ok r) :
    ∃ p', n.securedPacket E chance p header = .ok p' ∧
      n.routeSecured E now p' header oif sockerr = .ok r := by
  rw [routeOutput_of_hasAddress (hasAddress_of_routeOutput h)] at h
  exact bind_eq_ok.mp h

/-- A packet is routed as it is or encrypted; without a packet the loopback route
is returned. -/
theorem routeOutput_ok {chance : Chance} {p : Option Packet} {sockerr : SocketErrno}
    (h : n.routeOutput E now chance p header oif sockerr = .ok r) :
    p ≠ none ∧ (∃ p', n.routePacket E now p' header oif = .ok r) ∨
      p = none ∧ r.node = n ∧ r.nextHop = none := by
  obtain ⟨p', hsecured, h⟩ := routeSecured_of_ok h
  have hnone := securedPacket_eq_none hsecured
  cases p' with
  | none =>
    obtain ⟨route, hroute, h⟩ := bind_eq_ok.mp h
    cases h
    refine .inr ⟨hnone.mp rfl, rfl, ?_⟩
    simp [RouteOutputResult.nextHop, outputDevice_of_loopbackRoute hroute]
  | some p' => exact .inl ⟨fun hp => absurd (hnone.mpr hp) (by simp), p', h⟩

/-- Routing changes no more of a packet than its tag. -/
theorem routePacket_packet (h : n.routePacket E now p header oif = .ok r) :
    ∃ tag, r.packet = some { p with deferredTag := tag } := by
  rcases routePacket_ok h with ⟨-, h⟩ | ⟨-, hp, -⟩
  · rcases (routeUnicast_ok h).2 with ⟨-, -, hp⟩ | ⟨-, -, hp, -⟩
    · exact ⟨_, hp⟩
    · exact ⟨p.deferredTag, hp⟩
  · exact ⟨p.deferredTag, hp⟩

end

section
variable {β : Type} (E : Env β) (chance : Chance) (n : Node) (header : Ipv4Header)

theorem encryptHello_of_size {p : Packet} (h : p.getSize ≠ HELLO_PACKET_SIZE + 1)
    (aad : Block AAD_LENGTH) (iv : Block IV_LENGTH) : n.encryptHello E chance aad iv p = .ok p :=
  if_neg h

theorem encryptGSGeoLocation_of_size {p : Packet} (h : p.getSize ≠ GS_PACKET_SIZE + 1)
    (aad : Block AAD_LENGTH) (iv : Block IV_LENGTH) :
    n.encryptGSGeoLocation E chance aad iv p = .ok p := if_neg h

/-- A packet of the size of application data becomes ciphertext and tag. -/
theorem securePacket_of_data {p : Packet} (h : p.getSize = PACKET_DATA_LEN_BEFORE_ENCRYPTON) :
    n.securePacket E chance p header =
      let secured := GCMConverter.encryption E.gcm
        (Block.copyData chance.byte PACKET_DATA_LEN_BEFORE_ENCRYPTON p.bytes)
        (gcmAad n.myAddress header.destination) n.sharedKey (gcmIv p.uid)
      .ok ⟨secured.1.toList ++ secured.2.toList, chance.freshUid, false⟩ := by
  have hhello : p.getSize ≠ HELLO_PACKET_SIZE + 1 := by rw [h]; decide
  have hgs : p.getSize ≠ GS_PACKET_SIZE + 1 := by rw [h]; decide
  simp only [securePacket, encryptHello_of_size E chance n hhello,
    encryptGSGeoLocation_of_size E chance n hgs, ok_bind, encryptData, if_pos h]
  rfl

/-- A packet of any other size stays as it is. -/
theorem securePacket_of_size {p : Packet} (hhello : p.getSize ≠ HELLO_PACKET_SIZE + 1)
    (hgs : p.getSize ≠ GS_PACKET_SIZE + 1) (hdata : p.getSize ≠ PACKET_DATA_LEN_BEFORE_ENCRYPTON) :
    n.securePacket E chance p header = .ok p := by
  rw [securePacket, encryptHello_of_size E chance n hhello, ok_bind,
    encryptGSGeoLocation_of_size E chance n hgs, ok_bind, encryptData, if_neg hdata]
  rfl

end

end Node

end SAeroRP
