import SAeroRP.Packet.Codec
import SAeroRP.Properties.SecureControl

/-! Which packets of the node's own RouteOutput rewrites in secure mode. It takes a packet
for a HELLO or a GSGEOLOCATION message by its size alone, so that application data of the
same size loses its first byte and leaves as a secure control message. -/

namespace SAeroRP.RewrittenPackets

open Library Node

/-! ### Messages -/

/-- The string is a type byte followed by exactly one header. -/
def IsMessage {H : Type} (type : MessageType) (serialize : H → Bytes) (bs : Bytes) : Prop :=
  ∃ hdr, bs = TypeHeader.serialize ⟨type, true⟩ ++ serialize hdr

def IsHello : Bytes → Prop := IsMessage .hello HelloHeader.serialize

def IsGSGeoLocation : Bytes → Prop := IsMessage .gsGeoLocation GSGeoLocationHeader.serialize

def IsSecureHello : Bytes → Prop := IsMessage .secureHello SecureHelloHeader.serialize

def IsSecureGSGeoLocation : Bytes → Prop :=
  IsMessage .secureGSGeoLocation SecureGSGeoLocationHeader.serialize

section
variable {H : Type} {type : MessageType} {serialize : H → Bytes} {bs : Bytes}

/-- The strings of a header's length are its encodings, so a message is known by its length
and its first byte. -/
theorem isMessage_iff {r : Reader H} {size : ℕ} (hr : Reader.Exact r serialize)
    (hc : Reader.Consumes r size) (hsize : ∀ hdr, (serialize hdr).length = size) :
    IsMessage type serialize bs ↔ bs.length = size + 1 ∧ bs.head? = some type.toU8 := by
  constructor
  · rintro ⟨hdr, rfl⟩
    refine ⟨?_, rfl⟩
    rw [List.length_append, hsize, SecureControl.length_type, Nat.add_comm]
  · rintro ⟨hlen, hhead⟩
    obtain ⟨b, rest, rfl⟩ := List.exists_cons_of_length_eq_add_one hlen
    obtain ⟨hdr, rfl⟩ := hr.of_length hc (Nat.succ.inj hlen)
    cases hhead
    exact ⟨hdr, rfl⟩

end

variable {bs : Bytes}

theorem isHello_iff : IsHello bs ↔
    bs.length = HELLO_PACKET_SIZE + 1 ∧ bs.head? = some MessageType.hello.toU8 :=
  isMessage_iff HelloHeader.exact HelloHeader.consumes HelloHeader.length_serialize

theorem isGSGeoLocation_iff : IsGSGeoLocation bs ↔
    bs.length = GS_PACKET_SIZE + 1 ∧ bs.head? = some MessageType.gsGeoLocation.toU8 :=
  isMessage_iff GSGeoLocationHeader.exact GSGeoLocationHeader.consumes
    GSGeoLocationHeader.length_serialize

theorem length_of_isSecureHello (h : IsSecureHello bs) :
    bs.length = HELLO_PACKET_SIZE + TAG_SIZE + 1 :=
  ((isMessage_iff SecureHelloHeader.exact SecureHelloHeader.consumes
    SecureHelloHeader.length_serialize).mp h).1

theorem length_of_isSecureGSGeoLocation (h : IsSecureGSGeoLocation bs) :
    bs.length = GS_PACKET_SIZE + TAG_SIZE + 1 :=
  ((isMessage_iff SecureGSGeoLocationHeader.exact SecureGSGeoLocationHeader.consumes
    SecureGSGeoLocationHeader.length_serialize).mp h).1

/-! ### What becomes of a packet -/

/-- The four things the first part of RouteOutput does with a packet, each for the packets
of its size. -/
inductive Rewritten : Bytes → Bytes → Prop where
  | hello {before after : Bytes} (hsize : before.length = HELLO_PACKET_SIZE + 1)
      (hafter : after.length = HELLO_PACKET_SIZE + TAG_SIZE + 1) : Rewritten before after
  | gsGeoLocation {before after : Bytes} (hsize : before.length = GS_PACKET_SIZE + 1)
      (hafter : after.length = GS_PACKET_SIZE + TAG_SIZE + 1) : Rewritten before after
  | data {before after : Bytes} (hsize : before.length = PACKET_DATA_LEN_BEFORE_ENCRYPTON)
      (hafter : after.length = PACKET_DATA_LEN_BEFORE_ENCRYPTON + TAG_SIZE) :
      Rewritten before after
  | other {before : Bytes} (hhello : before.length ≠ HELLO_PACKET_SIZE + 1)
      (hgs : before.length ≠ GS_PACKET_SIZE + 1)
      (hdata : before.length ≠ PACKET_DATA_LEN_BEFORE_ENCRYPTON) : Rewritten before before

section
variable {β : Type} (E : Env β) (chance : Chance) (n : Node) (header : Ipv4Header)

theorem securePacket_rewritten (p : Packet) :
    ∃ q, n.securePacket E chance p header = .ok q ∧ Rewritten p.bytes q.bytes := by
  obtain ⟨bytes, uid, deferred⟩ := p
  by_cases hhello : bytes.length = HELLO_PACKET_SIZE + 1
  · obtain ⟨type, rest, rfl⟩ := List.exists_cons_of_length_eq_add_one hhello
    obtain ⟨hdr, rfl⟩ := HelloHeader.exact.of_length HelloHeader.consumes (Nat.succ.inj hhello)
    refine ⟨_, SecureControl.securePacket_helloSize E chance n header uid deferred type hdr,
      .hello hhello ?_⟩
    rw [SecureControl.length_sealedBytes, Nat.add_comm]
  by_cases hgs : bytes.length = GS_PACKET_SIZE + 1
  · obtain ⟨type, rest, rfl⟩ := List.exists_cons_of_length_eq_add_one hgs
    obtain ⟨hdr, rfl⟩ := GSGeoLocationHeader.exact.of_length GSGeoLocationHeader.consumes
      (Nat.succ.inj hgs)
    refine ⟨_, SecureControl.securePacket_gsGeoLocationSize E chance n header uid deferred type hdr,
      .gsGeoLocation hgs ?_⟩
    rw [SecureControl.length_sealedBytes, Nat.add_comm]
  by_cases hdata : bytes.length = PACKET_DATA_LEN_BEFORE_ENCRYPTON
  · refine ⟨_, securePacket_of_data E chance n header (p := ⟨bytes, uid, deferred⟩) hdata,
      .data hdata ?_⟩
    simp
  · exact ⟨_, securePacket_of_size E chance n header (p := ⟨bytes, uid, deferred⟩) hhello hgs hdata,
      .other hhello hgs hdata⟩

end

/-! ### Control messages -/

/-- A packet is replaced by a secure control message only if it is the control message, and
no other packet is changed but those with the size of application data. -/
structure OnlyControlRewritten (before after : Bytes) : Prop where
  hello : after ≠ before → IsSecureHello after → IsHello before
  gsGeoLocation : after ≠ before → IsSecureGSGeoLocation after → IsGSGeoLocation before
  unchanged : before.length ≠ PACKET_DATA_LEN_BEFORE_ENCRYPTON → ¬ IsHello before →
    ¬ IsGSGeoLocation before → after = before

/-- A packet with the size of a control message starts with its type byte. -/
def TypedBySize (bs : Bytes) : Prop :=
  (bs.length = HELLO_PACKET_SIZE + 1 → bs.head? = some MessageType.hello.toU8) ∧
    (bs.length = GS_PACKET_SIZE + 1 → bs.head? = some MessageType.gsGeoLocation.toU8)

section
variable {before after : Bytes}

/-- Where a packet that is no application data is changed, and into a secure message only if
it has the size of the message, it has to be a control message. -/
theorem onlyControl_iff_of_changed (hchanged : after ≠ before)
    (hdata : before.length ≠ PACKET_DATA_LEN_BEFORE_ENCRYPTON)
    (hhello : IsSecureHello after → before.length = HELLO_PACKET_SIZE + 1)
    (hgs : IsSecureGSGeoLocation after → before.length = GS_PACKET_SIZE + 1) :
    OnlyControlRewritten before after ↔ IsHello before ∨ IsGSGeoLocation before := by
  constructor
  · intro h
    by_contra hno
    obtain ⟨hnot, hnot'⟩ := not_or.mp hno
    exact hchanged (h.unchanged hdata hnot hnot')
  · rintro (h | h)
    · refine ⟨fun _ _ => h, fun _ hsec => ?_, fun _ hno => absurd h hno⟩
      have hsize := hgs hsec
      rw [(isHello_iff.mp h).1] at hsize
      exact absurd hsize (by decide)
    · refine ⟨fun _ hsec => ?_, fun _ _ => h, fun _ _ hno => absurd h hno⟩
      have hsize := hhello hsec
      rw [(isGSGeoLocation_iff.mp h).1] at hsize
      exact absurd hsize (by decide)

/-- A packet with the size of a control message is one if it has the type byte. -/
theorem typedBySize_iff (h : before.length = HELLO_PACKET_SIZE + 1 ∨
    before.length = GS_PACKET_SIZE + 1) :
    TypedBySize before ↔ IsHello before ∨ IsGSGeoLocation before := by
  have hne : HELLO_PACKET_SIZE ≠ GS_PACKET_SIZE := by decide
  rw [isHello_iff, isGSGeoLocation_iff, TypedBySize]
  rcases h with h | h
  · simp [h, hne]
  · simp [h, hne.symm]

/-- The size of a packet and its first byte decide whether it is treated rightly. -/
theorem Rewritten.onlyControl_iff (h : Rewritten before after) :
    OnlyControlRewritten before after ↔ TypedBySize before := by
  cases h with
  | hello hsize hafter =>
    rw [typedBySize_iff (.inl hsize)]
    refine onlyControl_iff_of_changed (fun h => ?_) ?_ (fun _ => hsize) fun hsec => ?_
    · rw [h, hsize] at hafter
      exact absurd hafter (by decide)
    · rw [hsize]
      decide
    · rw [length_of_isSecureGSGeoLocation hsec] at hafter
      exact absurd hafter (by decide)
  | gsGeoLocation hsize hafter =>
    rw [typedBySize_iff (.inr hsize)]
    refine onlyControl_iff_of_changed (fun h => ?_) ?_ (fun hsec => ?_) fun _ => hsize
    · rw [h, hsize] at hafter
      exact absurd hafter (by decide)
    · rw [hsize]
      decide
    · rw [length_of_isSecureHello hsec] at hafter
      exact absurd hafter (by decide)
  | data hsize hafter =>
    refine iff_of_true ⟨fun _ hsec => ?_, fun _ hsec => ?_, fun hno => absurd hsize hno⟩
      ⟨fun h => absurd (hsize.symm.trans h) (by decide),
        fun h => absurd (hsize.symm.trans h) (by decide)⟩
    · rw [length_of_isSecureHello hsec] at hafter
      exact absurd hafter (by decide)
    · rw [length_of_isSecureGSGeoLocation hsec] at hafter
      exact absurd hafter (by decide)
  | other hhello hgs _ =>
    exact iff_of_true ⟨fun h => absurd rfl h, fun h => absurd rfl h, fun _ _ _ => rfl⟩
      ⟨fun h => absurd h hhello, fun h => absurd h hgs⟩

end

section
variable {β : Type} [Preorder β] [DecidableLT β] [DecidableEq β] [Zero β]

/-- In secure mode the packet that leaves RouteOutput has the bytes the encryption gives it.
They are those of a secure control message only for a control message, and other packets keep
theirs, if and only if a packet with the size of a control message starts with its type. -/
theorem only_control_rewritten_iff (E : Env β) (chance : Chance) (header : Ipv4Header) {n : Node}
    (hsec : n.securityState = true) (p : Packet) :
    ∃ q, n.securedPacket E chance (some p) header = .ok (some q) ∧
      (∀ (now : Time) (oif : Option NetDevice) (sockerr : SocketErrno) (r : RouteOutputResult),
        n.routeOutput E now chance (some p) header oif sockerr = .ok r →
        r.packet.map Packet.bytes = some q.bytes) ∧
      (OnlyControlRewritten p.bytes q.bytes ↔ TypedBySize p.bytes) := by
  obtain ⟨q, hq, hrewritten⟩ := securePacket_rewritten E chance n header p
  have hsecured : n.securedPacket E chance (some p) header = .ok (some q) := by
    rw [securedPacket, if_pos hsec]
    show some <$> n.securePacket E chance p header = _
    rw [hq]
    rfl
  refine ⟨q, hsecured, fun now oif sockerr r h => ?_, hrewritten.onlyControl_iff⟩
  obtain ⟨p', hp', h⟩ := routeSecured_of_ok h
  rw [hsecured] at hp'
  cases hp'
  obtain ⟨tag, hpacket⟩ := routePacket_packet h
  rw [hpacket]
  rfl

end

/-- A HELLO message of node 1 of the sample. -/
theorem only_control_rewritten_iff_hello : ∃ q,
    SecureControl.sender.securedPacket Sample.env Sample.chance
      (some ⟨SecureControl.helloBytes, 5, false⟩) SecureControl.toAll = .ok (some q) ∧
    OnlyControlRewritten SecureControl.helloBytes q.bytes := by
  obtain ⟨q, hq, -, hiff⟩ := only_control_rewritten_iff Sample.env Sample.chance
    SecureControl.toAll (n := SecureControl.sender) rfl ⟨SecureControl.helloBytes, 5, false⟩
  exact ⟨q, hq, hiff.mpr ⟨fun _ => rfl, fun h => absurd h (by decide +kernel)⟩⟩

/-- Application data with the size of a HELLO message. -/
def readings : Packet := ⟨List.replicate 26 7, 5, false⟩

theorem readings_rewritten : ∃ r q, SecureControl.sender.routeOutput Sample.env 0 Sample.chance
      (some readings) SecureControl.toAll none .errorNotError = .ok r ∧
    r.packet = some q ∧ ¬ OnlyControlRewritten readings.bytes q.bytes := by
  obtain ⟨r, hroute, hlen⟩ : ∃ r, SecureControl.sender.routeOutput Sample.env 0 Sample.chance
      (some readings) SecureControl.toAll none .errorNotError = .ok r ∧
      decide (r.packet.map (fun q => q.bytes.length) = some 42) = true :=
    exists_of_any (by decide +kernel)
  obtain ⟨q, hq, hlen⟩ := Option.map_eq_some_iff.mp (of_decide_eq_true hlen)
  refine ⟨r, q, hroute, hq, fun h => ?_⟩
  have hhello : ¬ IsHello readings.bytes := fun h => absurd (isHello_iff.mp h).2 (by decide)
  have hgs : ¬ IsGSGeoLocation readings.bytes :=
    fun h => absurd (isGSGeoLocation_iff.mp h).1 (by decide)
  rw [h.unchanged (by decide) hhello hgs] at hlen
  exact absurd hlen (by decide)

end SAeroRP.RewrittenPackets
