import SAeroRP.System.Sample

/-! Application data in secure mode. The sender turns 1000 bytes of data into 1016
bytes of ciphertext and tag. At the receiver the packet carries a UDP header in
front, so it has 1024 bytes and RouteInput does not take it for an encrypted data
packet; a packet RouteInput does take for one is delivered whatever the check of
its tag returns. Either way the upper layer gets the packet as it came. -/

namespace SAeroRP.DataPackets

open Library Node

variable {β : Type} [Preorder β] [DecidableLT β] [DecidableEq β] [Zero β]

/-! ### Local delivery -/

/-- RouteInput delivers the packet to the node's own upper layer. -/
structure LocallyDestined (p : Packet) (header : Ipv4Header) (iif : ℕ) (n : Node) : Prop where
  interfaces : n.socketAddresses.isEmpty = false
  notDeferred : ¬ (p.deferredTag = true ∧ n.isMyOwnAddress header.source = true)
  destination : n.ipv4.isDestinationAddress header.destination iif = true

/-- A locally destined packet is handed up unchanged. -/
theorem routeInput_of_locallyDestined {p : Packet} {header : Ipv4Header} {iif : ℕ} {n : Node}
    (h : LocallyDestined p header iif n) (E : Env β) (now : Time) (chance : Chance)
    (ucb lcb ecb : Callback) :
    n.routeInput E now chance p header iif ucb lcb ecb =
      .ok ({ n with gcmAadToBeChecked := gcmAad header.source header.destination }.localDelivery E
        chance p header iif lcb) := by
  have hdef : ¬ (p.deferredTag = true ∧ ({ n with
      gcmAadToBeChecked := gcmAad header.source header.destination } : Node).isMyOwnAddress
        header.source = true) := h.notDeferred
  unfold routeInput
  simp only [h.interfaces, h.destination, if_neg hdef, Bool.false_eq_true, if_false, if_true]

/-- The packets handed to the upper layer. -/
def delivered (effects : List Effect) : List Packet :=
  effects.filterMap fun
    | .lcb _ p _ _ => some p
    | _ => none

omit [Preorder β] [DecidableLT β] [DecidableEq β] [Zero β] in
@[simp] theorem delivered_localDelivery (E : Env β) (chance : Chance) (p : Packet)
    (header : Ipv4Header) (iif : ℕ) (lcb : Callback) (n : Node) :
    delivered (n.localDelivery E chance p header iif lcb).effects = [p] := rfl

/-! ### The tag check -/

/-- The tag that RouteInput assembles for the packet verifies: its ciphertext is
bytes 8 to 1007, its tag bytes 1008 to 1015 and 8 undetermined bytes. -/
def TagVerifies (E : Env β) (chance : Chance) (p : Packet) (header : Ipv4Header) (n : Node) :
    Prop :=
  (GCMConverter.dencryption E.gcm
    (Block.copyData (fun i => chance.byte (8 + i)) PACKET_DATA_LEN_BEFORE_ENCRYPTON
      (p.bytes.drop 8))
    (gcmAad header.source header.destination)
    (Block.copyData (fun i => chance.byte (1008 + i)) TAG_SIZE (p.bytes.drop 1008))
    n.sharedKey (gcmIv p.uid)).1 = 1

omit [Preorder β] [DecidableLT β] [DecidableEq β] [Zero β] in
theorem dataCheck_eq_one (E : Env β) (chance : Chance) (p : Packet) (header : Ipv4Header) (n : Node)
    (h : n.gcmAadToBeChecked = gcmAad header.source header.destination) :
    n.dataCheck E chance p = 1 ↔ TagVerifies E chance p header n := by
  simp only [dataCheck, TagVerifies, Block.slice_copyData, h, List.drop_drop, ← Nat.add_assoc]
  rfl

/-- Every encrypted data packet is delivered, so that delivery implies a tag that
verified exactly for the packets whose tag verifies. -/
theorem delivered_only_if_verified_iff (E : Env β) (now : Time) (chance : Chance) (p : Packet)
    (header : Ipv4Header) (iif : ℕ) (ucb lcb ecb : Callback) (n : Node)
    (hlocal : LocallyDestined p header iif n) (hsecure : n.IsSecureData p header) :
    ∃ r, n.routeInput E now chance p header iif ucb lcb ecb = .ok r ∧
      delivered r.effects = [p] ∧
      ((delivered r.effects ≠ [] → r.check = some 1) ↔ TagVerifies E chance p header n) := by
  refine ⟨_, routeInput_of_locallyDestined hlocal E now chance ucb lcb ecb, rfl, ?_⟩
  have hcheck := dataCheck_eq_one E chance p header
    { n with gcmAadToBeChecked := gcmAad header.source header.destination } rfl
  have hsec : ({ n with gcmAadToBeChecked := gcmAad header.source header.destination } :
      Node).IsSecureData p header := hsecure
  rw [delivered_localDelivery, localDelivery, if_pos hsec, Option.some.injEq, hcheck]
  exact ⟨fun h => h (List.cons_ne_nil _ _), fun h _ => h⟩

/-- A data packet of zeros for the ground station of the sample. -/
def zeroPacket : Packet := ⟨List.replicate 1016 0, 7, false⟩

def zeroHeader : Ipv4Header := ⟨.ofOctets 10 1 1 2, .ofOctets 10 1 1 1⟩

theorem zeroPacket_local : LocallyDestined zeroPacket zeroHeader 1 (Sample.secureNode 0) :=
  ⟨by decide, by decide, by decide⟩

theorem zeroPacket_secure : (Sample.secureNode 0).IsSecureData zeroPacket zeroHeader :=
  ⟨by decide, List.length_replicate, by decide⟩

/-- Its tag is zero, and the key's is not. -/
theorem zeroPacket_not_verified :
    ¬ TagVerifies Sample.env Sample.chance zeroPacket zeroHeader (Sample.secureNode 0) := by
  have htag : Block.copyData (fun _ => 0) TAG_SIZE (zeroPacket.bytes.drop 1008) ≠
      (Sample.secureNode 0).sharedKey.slice 0 TAG_SIZE (by decide) := by
    rw [zeroPacket, List.drop_replicate]
    decide
  have hret : (GCMConverter.dencryption Sample.gcm
      (Block.copyData (fun _ => 0) PACKET_DATA_LEN_BEFORE_ENCRYPTON (zeroPacket.bytes.drop 8))
      (gcmAad zeroHeader.source zeroHeader.destination)
      (Block.copyData (fun _ => 0) TAG_SIZE (zeroPacket.bytes.drop 1008))
      (Sample.secureNode 0).sharedKey (gcmIv zeroPacket.uid)).1 = -1 := by
    simp only [GCMConverter.dencryption, Sample.gcm, if_neg htag]
    rfl
  intro h
  have := hret.symm.trans h
  omega

theorem delivered_only_if_verified_iff_sample :
    ∃ r, (Sample.secureNode 0).routeInput Sample.env 0 Sample.chance zeroPacket zeroHeader 1 0 0 0 =
        .ok r ∧ delivered r.effects = [zeroPacket] ∧
      ((delivered r.effects ≠ [] → r.check = some 1) ↔
        TagVerifies Sample.env Sample.chance zeroPacket zeroHeader (Sample.secureNode 0)) :=
  delivered_only_if_verified_iff Sample.env 0 Sample.chance zeroPacket zeroHeader 1 0 0 0 _
    zeroPacket_local zeroPacket_secure

/-- A packet of zeros is delivered although its tag does not verify. -/
theorem delivered_not_verified :
    ¬ ∀ (E : Env ℚ) (now : Time) (chance : Chance) (p : Packet) (header : Ipv4Header) (iif : ℕ)
      (ucb lcb ecb : Callback) (n : Node) (r : RouteInputResult),
      LocallyDestined p header iif n → n.IsSecureData p header →
        n.routeInput E now chance p header iif ucb lcb ecb = .ok r →
          delivered r.effects ≠ [] → r.check = some 1 := by
  intro h
  have hcheck := h Sample.env 0 Sample.chance zeroPacket zeroHeader 1 0 0 0 _ _ zeroPacket_local
    zeroPacket_secure (routeInput_of_locallyDestined zeroPacket_local _ _ _ _ _ _)
    (by simp)
  have hsec : ({ Sample.secureNode 0 with
      gcmAadToBeChecked := gcmAad zeroHeader.source zeroHeader.destination } : Node).IsSecureData
        zeroPacket zeroHeader := zeroPacket_secure
  rw [localDelivery, if_pos hsec, Option.some.injEq] at hcheck
  have hverified := (dataCheck_eq_one Sample.env Sample.chance zeroPacket zeroHeader
    { Sample.secureNode 0 with
      gcmAadToBeChecked := gcmAad zeroHeader.source zeroHeader.destination } rfl).mp hcheck
  exact zeroPacket_not_verified hverified

/-! ### From payload to payload -/

/-- The packet in front of RouteInput: the bytes RouteOutput left with a UDP
header in front, under the same uid. -/
structure Transported (sent received : Packet) : Prop where
  bytes : ∃ udp : Bytes, udp.length = 8 ∧ received.bytes = udp ++ sent.bytes
  uid : received.uid = sent.uid

/-- Each packet handed up carries the payload after its UDP header. -/
def CarriesPayload (payload : Bytes) (r : RouteInputResult) : Prop :=
  ∀ q ∈ delivered r.effects,
    (q.bytes.drop 8).take PACKET_DATA_LEN_BEFORE_ENCRYPTON = payload

/-- The ciphertext RouteOutput makes of the payload. -/
def ciphertext (E : Env β) (chance : Chance) (p : Packet) (header : Ipv4Header) (n : Node) :
    Bytes :=
  (GCMConverter.encryption E.gcm
    (Block.copyData chance.byte PACKET_DATA_LEN_BEFORE_ENCRYPTON p.bytes)
    (gcmAad n.myAddress header.destination) n.sharedKey (gcmIv p.uid)).1.toList

/-- RouteOutput routes ciphertext and tag, under the uid of a new packet. -/
theorem routeOutput_data {p : Packet} {n : Node} (hsecure : n.securityState = true)
    (haddress : n.ipv4.HasAddress 1) (hsize : p.getSize = PACKET_DATA_LEN_BEFORE_ENCRYPTON) (E : Env β) (now : Time)
    (chance : Chance) (header : Ipv4Header) (oif : Option NetDevice) (sockerr : SocketErrno) :
    ∃ tag : Block TAG_SIZE, n.routeOutput E now chance (some p) header oif sockerr =
      n.routePacket E now
        ⟨ciphertext E chance p header n ++ tag.toList, chance.freshUid, false⟩ header oif := by
  refine ⟨(GCMConverter.encryption E.gcm
    (Block.copyData chance.byte PACKET_DATA_LEN_BEFORE_ENCRYPTON p.bytes)
    (gcmAad n.myAddress header.destination) n.sharedKey (gcmIv p.uid)).2, ?_⟩
  rw [routeOutput_of_hasAddress fun _ => haddress, securedPacket, if_pos hsecure]
  simp only [securePacket_of_data E chance n header hsize]
  rfl

/-- What is delivered is 1016 bytes of ciphertext and tag. They are never the
payload, and their first 1000 bytes are the payload exactly where encryption
leaves it unchanged. -/
theorem data_round_trip_iff (E : Env β) (now now' : Time) (chance chance' : Chance)
    (p p' q : Packet) (header header' : Ipv4Header) (oif : Option NetDevice) (sockerr : SocketErrno)
    (iif : ℕ) (ucb lcb ecb : Callback) (n m : Node) (r : RouteOutputResult)
    (hsecure : n.securityState = true) (hsize : p.getSize = PACKET_DATA_LEN_BEFORE_ENCRYPTON)
    (hr : n.routeOutput E now chance (some p) header oif sockerr = .ok r)
    (hp : r.packet = some p') (hq : Transported p' q) (hlocal : LocallyDestined q header' iif m) :
    ∃ r', m.routeInput E now' chance' q header' iif ucb lcb ecb = .ok r' ∧
      delivered r'.effects = [q] ∧ q.bytes.drop 8 ≠ p.bytes ∧
      (CarriesPayload p.bytes r' ↔ ciphertext E chance p header n = p.bytes) := by
  obtain ⟨tag, hroute⟩ := routeOutput_data hsecure (hasAddress_of_routeOutput hr hsecure) hsize E
    now chance header oif sockerr
  have hbytes : p'.bytes = ciphertext E chance p header n ++ tag.toList := by
    obtain ⟨deferred, hpacket⟩ := routePacket_packet (hroute.symm.trans hr)
    rw [hp] at hpacket
    cases hpacket
    rfl
  obtain ⟨udp, hudp, hqb⟩ := hq.bytes
  have hdrop : q.bytes.drop 8 = ciphertext E chance p header n ++ tag.toList := by
    rw [hqb, hbytes, List.drop_left' hudp]
  have hlen : (ciphertext E chance p header n).length = PACKET_DATA_LEN_BEFORE_ENCRYPTON :=
    List.Vector.toList_length _
  refine ⟨_, routeInput_of_locallyDestined hlocal E now' chance' ucb lcb ecb, rfl, ?_, ?_⟩
  · intro heq
    have htotal : (q.bytes.drop 8).length = p.bytes.length := by rw [heq]
    rw [hdrop, List.length_append, hlen, List.Vector.toList_length] at htotal
    have : p.bytes.length = PACKET_DATA_LEN_BEFORE_ENCRYPTON := hsize
    simp only [this, TAG_SIZE] at htotal
    omega
  · simp only [CarriesPayload, delivered_localDelivery, List.mem_singleton, forall_eq, hdrop,
      List.take_left' hlen]

/-- Node 1 of the sample in flight, with node 2 as a neighbour. -/
def sender : Node :=
  { Sample.secureNode 1 with
    position := ⟨5, 0, 0⟩
    velocity := ⟨0, 1, 0⟩
    neighbors := NeighborTable.addEntry 0 (.ofOctets 10 1 1 3) ⟨0, 0, 0⟩ ⟨0, 2, 0⟩ {} }

def payload : Packet := ⟨List.replicate 1000 0, 5, false⟩

def payloadHeader : Ipv4Header := ⟨.ofOctets 10 1 1 2, .ofOctets 10 1 1 3⟩

theorem payload_size : payload.getSize = PACKET_DATA_LEN_BEFORE_ENCRYPTON := List.length_replicate

/-- Packets from node 1 to node 2 are routed directly. -/
theorem sender_routePacket (p : Packet) :
    ∃ r, sender.routePacket Sample.env 0 p payloadHeader none = .ok r ∧ r.packet = some p := by
  have hunicast : sender.RoutesUnicast payloadHeader :=
    ⟨by decide, by decide, by decide, by decide⟩
  have hhop : (sender.outputNextHop Sample.env 0 payloadHeader.destination).1 =
      some (.ofOctets 10 1 1 3) := by decide +kernel
  rw [routePacket_of_unicast (by decide) (by decide) hunicast, routeUnicast_of_nextHop hhop]
  exact ⟨_, rfl, rfl⟩

theorem received_local (bytes : Bytes) (uid : UInt64) :
    LocallyDestined ⟨bytes, uid, false⟩ payloadHeader 1 (Sample.secureNode 2) :=
  ⟨by decide, by simp, by decide⟩

theorem ciphertext_sample {p : Packet} (h : p.getSize = PACKET_DATA_LEN_BEFORE_ENCRYPTON)
    (header : Ipv4Header) (n : Node) :
    ciphertext Sample.env Sample.chance p header n = p.bytes.map (· + 1) := by
  have hlen : p.bytes.length = PACKET_DATA_LEN_BEFORE_ENCRYPTON := h
  have hcopy := Block.toList_copyData Sample.chance.byte hlen.ge
  rw [List.take_of_length_le hlen.le] at hcopy
  rw [ciphertext, GCMConverter.encryption]
  simp only [Sample.env, Sample.gcm, List.Vector.toList_map, hcopy]

/-- The bytes the sample's RouteOutput leaves of the payload, with a UDP header of
zeros. -/
def received (tag : Block TAG_SIZE) : Packet :=
  ⟨List.replicate 8 0 ++ (payload.bytes.map (· + 1) ++ tag.toList), Sample.chance.freshUid, false⟩

theorem payload_sent : ∃ r p' tag, sender.routeOutput Sample.env 0 Sample.chance (some payload)
    payloadHeader none .errorNotError = .ok r ∧ r.packet = some p' ∧
      Transported p' (received tag) := by
  obtain ⟨tag, hroute⟩ := routeOutput_data (n := sender) rfl (by decide) payload_size Sample.env 0
    Sample.chance payloadHeader none .errorNotError
  rw [ciphertext_sample payload_size] at hroute
  obtain ⟨r, hr, hp⟩ := sender_routePacket
    ⟨payload.bytes.map (· + 1) ++ tag.toList, Sample.chance.freshUid, false⟩
  exact ⟨r, _, tag, hroute.trans hr, hp, ⟨⟨_, List.length_replicate, rfl⟩, rfl⟩⟩

theorem data_round_trip_iff_sample :
    ∃ tag r', (Sample.secureNode 2).routeInput Sample.env 1 Sample.chance (received tag)
        payloadHeader 1 0 0 0 = .ok r' ∧
      delivered r'.effects = [received tag] ∧ (received tag).bytes.drop 8 ≠ payload.bytes ∧
      (CarriesPayload payload.bytes r' ↔
        ciphertext Sample.env Sample.chance payload payloadHeader sender = payload.bytes) := by
  obtain ⟨r, p', tag, hr, hp, hq⟩ := payload_sent
  exact ⟨tag, data_round_trip_iff Sample.env 0 1 Sample.chance Sample.chance payload p' _
    payloadHeader payloadHeader none .errorNotError 1 0 0 0 sender _ r rfl payload_size hr hp hq
    (received_local _ _)⟩

/-- With equal keys and a cipher that decryption inverts, a payload of zeros comes
out as ones. -/
theorem payload_not_delivered :
    ¬ ∀ (E : Env ℚ), E.gcm.Inverts → ∀ (now now' : Time) (chance chance' : Chance)
      (p p' q : Packet) (header header' : Ipv4Header) (oif : Option NetDevice)
      (sockerr : SocketErrno) (iif : ℕ) (ucb lcb ecb : Callback) (n m : Node)
      (r : RouteOutputResult) (r' : RouteInputResult),
      n.securityState = true → m.securityState = true → n.sharedKey = m.sharedKey →
      p.getSize = PACKET_DATA_LEN_BEFORE_ENCRYPTON → chance.freshUid ≠ p.uid →
      n.routeOutput E now chance (some p) header oif sockerr = .ok r → r.packet = some p' →
      Transported p' q → header'.source = n.myAddress → header'.destination = header.destination →
      LocallyDestined q header' iif m →
      m.routeInput E now' chance' q header' iif ucb lcb ecb = .ok r' →
      CarriesPayload p.bytes r' := by
  intro h
  obtain ⟨r, p', tag, hr, hp, hq⟩ := payload_sent
  have hlocal := received_local (received tag).bytes (received tag).uid
  have hcarries := h Sample.env Sample.gcm_inverts 0 1 Sample.chance Sample.chance payload p'
    (received tag) payloadHeader payloadHeader none .errorNotError 1 0 0 0 sender
    (Sample.secureNode 2) r _ rfl rfl rfl payload_size (by decide) hr hp hq (by decide) rfl hlocal
    (routeInput_of_locallyDestined hlocal _ _ _ _ _ _)
  have hones := hcarries (received tag) List.mem_cons_self
  have hlen : (payload.bytes.map (· + 1)).length = PACKET_DATA_LEN_BEFORE_ENCRYPTON := by
    rw [List.length_map]
    exact payload_size
  rw [received, List.drop_left' List.length_replicate, List.take_left' hlen] at hones
  have hone : (1 : UInt8) ∈ payload.bytes := by
    rw [← hones]
    exact List.mem_map.mpr ⟨0, List.mem_replicate.mpr ⟨by decide, rfl⟩, rfl⟩
  exact absurd (List.eq_of_mem_replicate hone) (by decide)

end SAeroRP.DataPackets
