import SAeroRP.Packet.Headers

/-! The header classes as one family. A class has the size it announces, what
Serialize writes and the fields Deserialize reads; Deserialize then asserts that it
has read as many bytes as were announced. The fields that are read are exactly those
that were written. -/

namespace SAeroRP

open Library
open Reader (Exact Consumes bind_eq_some pure_eq_some exact_map_take consumes_take consumes_pure)

/-! ### Fields -/

namespace Wire

theorem exact_u8 : Exact readU8 writeU8 := by
  refine exact_map_take length_writeU8 (fun n => ?_) fun bs hbs => ?_
  · simp [writeU8, leValue]
  · have hlt := leValue_lt bs
    have hbytes := leBytes_leValue bs
    rw [hbs] at hlt hbytes
    exact hbytes

theorem exact_u32 : Exact readU32 writeU32 := by
  refine exact_map_take length_writeU32 (fun n => ?_) fun bs hbs => ?_
  · rw [writeU32, leValue_leBytes_of_lt n.toNat_lt, UInt32.ofNat_toNat]
  · have hlt := leValue_lt bs
    rw [hbs] at hlt
    rw [writeU32, UInt32.toNat_ofNat_of_lt' hlt, ← hbs, leBytes_leValue]

theorem exact_u64 : Exact readU64 writeU64 := by
  refine exact_map_take length_writeU64 (fun n => ?_) fun bs hbs => ?_
  · rw [writeU64, leValue_leBytes_of_lt n.toNat_lt, UInt64.ofNat_toNat]
  · have hlt := leValue_lt bs
    rw [hbs] at hlt
    rw [writeU64, UInt64.toNat_ofNat_of_lt' hlt, ← hbs, leBytes_leValue]

theorem exact_address : Exact readAddress Ipv4Address.serialize := by
  refine exact_map_take Ipv4Address.length_serialize Ipv4Address.deserialize_serialize
    fun bs hbs => ?_
  have hlen : bs.reverse.length = 4 := by rw [List.length_reverse, hbs]
  have hlt := leValue_lt bs.reverse
  rw [hlen] at hlt
  rw [Ipv4Address.serialize, Ipv4Address.deserialize, UInt32.toNat_ofNat_of_lt' hlt, ← hlen,
    leBytes_leValue, List.reverse_reverse]

theorem consumes_u8 : Consumes readU8 1 := (consumes_take 1).map _

theorem consumes_u32 : Consumes readU32 4 := (consumes_take 4).map _

theorem consumes_u64 : Consumes readU64 8 := (consumes_take 8).map _

theorem consumes_address : Consumes readAddress 4 := (consumes_take 4).map _

theorem consumes_block (n : ℕ) : Consumes (readBlock n) n :=
  ⟨fun _ hn => ⟨_, dif_pos hn⟩, fun _ hn => dif_neg hn.not_ge⟩

theorem exact_block (n : ℕ) : Exact (readBlock n) List.Vector.toList := by
  intro bs b rest
  constructor
  · intro h
    unfold readBlock at h
    split_ifs at h with hn
    cases h
    exact (List.take_append_drop n bs).symm
  · rintro rfl
    exact reads_block b rest

end Wire

open Wire

/-! ### Headers -/

theorem HelloHeader.exact : Exact deserialize serialize := by
  refine .of_reads reads fun bs h rest hr => ?_
  simp only [deserialize, bind_eq_some, pure_eq_some, exact_u8.iff, exact_u32.iff] at hr
  obtain ⟨_, _, rfl, _, _, rfl, _, _, rfl, _, _, rfl, _, _, rfl, _, _, rfl, _, _, rfl, rfl, rfl⟩ := hr
  simp [serialize]

theorem GSGeoLocationHeader.exact : Exact deserialize serialize := by
  refine .of_reads reads fun bs h rest hr => ?_
  simp only [deserialize, bind_eq_some, pure_eq_some, exact_address.iff, exact_u32.iff,
    exact_u64.iff] at hr
  obtain ⟨_, _, rfl, _, _, rfl, _, _, rfl, _, _, rfl, _, _, rfl, _, _, rfl, _, _, rfl, _, _, rfl,
    _, _, rfl, rfl, rfl⟩ := hr
  simp [serialize]

theorem GSTopologyHeader.exact : Exact deserialize serialize := by
  refine .of_reads reads fun bs h rest hr => ?_
  simp only [deserialize, bind_eq_some, pure_eq_some, exact_address.iff, exact_u32.iff,
    exact_u64.iff] at hr
  obtain ⟨_, _, rfl, _, _, rfl, _, _, rfl, _, _, rfl, _, _, rfl, rfl, rfl⟩ := hr
  simp [serialize]

theorem AuthenticationRequestHeader.exact : Exact deserialize serialize := by
  refine .of_reads reads fun bs h rest hr => ?_
  simp only [deserialize, bind_eq_some, pure_eq_some, (exact_block _).iff, exact_u8.iff,
    exact_u32.iff, exact_u64.iff] at hr
  obtain ⟨_, _, rfl, _, _, rfl, _, _, rfl, _, _, rfl, _, _, rfl, rfl, rfl⟩ := hr
  simp [serialize]

theorem AuthenticationReplyHeader.exact : Exact deserialize serialize := by
  refine .of_reads reads fun bs h rest hr => ?_
  simp only [deserialize, bind_eq_some, pure_eq_some, (exact_block _).iff, exact_u8.iff,
    exact_u32.iff, exact_u64.iff] at hr
  obtain ⟨_, _, rfl, _, _, rfl, _, _, rfl, _, _, rfl, _, _, rfl, _, _, rfl, _, _, rfl, rfl, rfl⟩ := hr
  simp [serialize]

theorem AuthenticationReplyHeader.serialize_injective : Function.Injective serialize := by
  intro h h' heq
  have hread := (reads h).run_nil
  rw [heq, (reads h').run_nil] at hread
  cases hread
  rfl

theorem SecureHelloHeader.exact : Exact deserialize serialize := by
  refine .of_reads reads fun bs h rest hr => ?_
  simp only [deserialize, bind_eq_some, pure_eq_some, (exact_block _).iff] at hr
  obtain ⟨_, _, rfl, _, _, rfl, rfl, rfl⟩ := hr
  simp [serialize]

theorem SecureGSGeoLocationHeader.exact : Exact deserialize serialize := by
  refine .of_reads reads fun bs h rest hr => ?_
  simp only [deserialize, bind_eq_some, pure_eq_some, (exact_block _).iff] at hr
  obtain ⟨_, _, rfl, _, _, rfl, rfl, rfl⟩ := hr
  simp [serialize]

theorem HelloHeader.consumes : Consumes deserialize HELLO_PACKET_SIZE :=
  consumes_u32.bind fun _ => consumes_u32.bind fun _ => consumes_u32.bind fun _ =>
    consumes_u8.bind fun _ => consumes_u32.bind fun _ => consumes_u32.bind fun _ =>
      consumes_u32.bind fun _ => consumes_pure _

theorem GSGeoLocationHeader.consumes : Consumes deserialize GS_PACKET_SIZE :=
  consumes_address.bind fun _ => consumes_u32.bind fun _ => consumes_u32.bind fun _ =>
    consumes_u32.bind fun _ => consumes_u32.bind fun _ => consumes_u32.bind fun _ =>
      consumes_u32.bind fun _ => consumes_u64.bind fun _ => consumes_u64.bind fun _ =>
        consumes_pure _

theorem AuthenticationRequestHeader.consumes : Consumes deserialize getSerializedSize :=
  (consumes_block _).bind fun _ => consumes_u64.bind fun _ => consumes_u32.bind fun _ =>
    consumes_u8.bind fun _ => (consumes_block _).bind fun _ => consumes_pure _

theorem AuthenticationReplyHeader.consumes : Consumes deserialize getSerializedSize :=
  (consumes_block _).bind fun _ => consumes_u64.bind fun _ => consumes_u32.bind fun _ =>
    consumes_u32.bind fun _ => consumes_u8.bind fun _ => (consumes_block _).bind fun _ =>
      (consumes_block _).bind fun _ => consumes_pure _

theorem SecureHelloHeader.consumes : Consumes deserialize (HELLO_PACKET_SIZE + TAG_SIZE) :=
  (consumes_block _).bind fun _ => (consumes_block _).bind fun _ => consumes_pure _

theorem SecureGSGeoLocationHeader.consumes : Consumes deserialize (GS_PACKET_SIZE + TAG_SIZE) :=
  (consumes_block _).bind fun _ => (consumes_block _).bind fun _ => consumes_pure _

/-- A type byte that is known is the byte of its type. -/
theorem MessageType.toU8_of_ofU8 {b : UInt8} {t : MessageType} (h : ofU8 b = some t) :
    t.toU8 = b := by
  have := List.find?_some h
  simpa using this

namespace TypeHeader

theorem length_serialize (h : TypeHeader) : h.serialize.length = getSerializedSize := rfl

/-- Whatever the object held before, the type that was written is read. -/
theorem deserialize_serialize (old h : TypeHeader) (rest : Bytes) :
    old.deserialize (h.serialize ++ rest) = some (⟨h.type, true⟩, rest) := old.reads h.type rest

/-- Exactly one byte is read. It is the byte of the type, if that is known. -/
theorem of_deserialize {old h : TypeHeader} {bs rest : Bytes}
    (hr : old.deserialize bs = some (h, rest)) :
    ∃ b, bs = b :: rest ∧ (h.valid = true → h.serialize = [b]) := by
  cases bs with
  | nil => cases hr
  | cons b mid =>
    rw [deserialize_cons] at hr
    cases ht : MessageType.ofU8 b with
    | none =>
      rw [ht] at hr
      cases hr
      exact ⟨b, rfl, fun h => by cases h⟩
    | some t =>
      rw [ht] at hr
      cases hr
      refine ⟨b, rfl, fun _ => ?_⟩
      rw [serialize, MessageType.toU8_of_ofU8 ht]
      rfl

end TypeHeader

/-! ### Classes -/

inductive HeaderClass where
  | type
  | hello
  | gsGeoLocation
  | gsTopology
  | authenticationRequest
  | authenticationReply
  | secureHello
  | secureGSGeoLocation
  deriving DecidableEq, Repr

namespace HeaderClass

/-- The objects of a class. -/
def Header : HeaderClass → Type
  | type => TypeHeader
  | hello => HelloHeader
  | gsGeoLocation => GSGeoLocationHeader
  | gsTopology => GSTopologyHeader
  | authenticationRequest => AuthenticationRequestHeader
  | authenticationReply => AuthenticationReplyHeader
  | secureHello => SecureHelloHeader
  | secureGSGeoLocation => SecureGSGeoLocationHeader

def getSerializedSize : HeaderClass → ℕ
  | type => TypeHeader.getSerializedSize
  | hello => HelloHeader.getSerializedSize
  | gsGeoLocation => GSGeoLocationHeader.getSerializedSize
  | gsTopology => GSTopologyHeader.getSerializedSize
  | authenticationRequest => AuthenticationRequestHeader.getSerializedSize
  | authenticationReply => AuthenticationReplyHeader.getSerializedSize
  | secureHello => SecureHelloHeader.getSerializedSize
  | secureGSGeoLocation => SecureGSGeoLocationHeader.getSerializedSize

def serialize : (c : HeaderClass) → c.Header → Bytes
  | type => TypeHeader.serialize
  | hello => HelloHeader.serialize
  | gsGeoLocation => GSGeoLocationHeader.serialize
  | gsTopology => GSTopologyHeader.serialize
  | authenticationRequest => AuthenticationRequestHeader.serialize
  | authenticationReply => AuthenticationReplyHeader.serialize
  | secureHello => SecureHelloHeader.serialize
  | secureGSGeoLocation => SecureGSGeoLocationHeader.serialize

/-- What Deserialize reads into an object. Only a type header keeps something of what
the object held. -/
def readFields : (c : HeaderClass) → c.Header → Reader c.Header
  | type, old => TypeHeader.deserialize old
  | hello, _ => HelloHeader.deserialize
  | gsGeoLocation, _ => GSGeoLocationHeader.deserialize
  | gsTopology, _ => GSTopologyHeader.deserialize
  | authenticationRequest, _ => AuthenticationRequestHeader.deserialize
  | authenticationReply, _ => AuthenticationReplyHeader.deserialize
  | secureHello, _ => SecureHelloHeader.deserialize
  | secureGSGeoLocation, _ => SecureGSGeoLocationHeader.deserialize

/-- Deserialize: the object afterwards and the number of bytes that were read, which is
asserted to be the size the class announces. -/
def deserialize (c : HeaderClass) (old : c.Header) (bs : Bytes) : Except Fault (c.Header × ℕ) :=
  match c.readFields old bs with
  | none => .error .pastEnd
  | some (h, rest) =>
    let dist := bs.length - rest.length
    if dist = c.getSerializedSize then .ok (h, dist) else .error .assertion

/-- The object with what is written of it. The mark that the type is known is not; it is
set for every type that can be written. -/
def written : (c : HeaderClass) → c.Header → c.Header
  | type, h => ({ h with valid := true } : TypeHeader)
  | hello, h => h
  | gsGeoLocation, h => h
  | gsTopology, h => h
  | authenticationRequest, h => h
  | authenticationReply, h => h
  | secureHello, h => h
  | secureGSGeoLocation, h => h

/-- A type header has a known type. -/
def Known : (c : HeaderClass) → c.Header → Prop
  | type, h => TypeHeader.valid h = true
  | _, _ => True

/-- The number of bytes Serialize writes. -/
def writtenSize : HeaderClass → ℕ
  | gsTopology => 28
  | c => c.getSerializedSize

variable (c : HeaderClass) (old h : c.Header) (bs rest : Bytes)

theorem length_serialize : (c.serialize h).length = c.writtenSize := by
  cases c with
  | type => exact TypeHeader.length_serialize h
  | hello => exact HelloHeader.length_serialize h
  | gsGeoLocation => exact GSGeoLocationHeader.length_serialize h
  | gsTopology => exact GSTopologyHeader.length_serialize h
  | authenticationRequest => exact AuthenticationRequestHeader.length_serialize h
  | authenticationReply => exact AuthenticationReplyHeader.length_serialize h
  | secureHello => exact SecureHelloHeader.length_serialize h
  | secureGSGeoLocation => exact SecureGSGeoLocationHeader.length_serialize h

/-- One class announces another size than it writes. -/
theorem writtenSize_eq_iff : c.writtenSize = c.getSerializedSize ↔ c ≠ .gsTopology := by
  cases c <;> simp [writtenSize, getSerializedSize, GSTopologyHeader.getSerializedSize]

/-- What was written is read. -/
theorem readFields_serialize :
    c.readFields old (c.serialize h ++ rest) = some (c.written h, rest) := by
  cases c with
  | type => exact TypeHeader.deserialize_serialize old h rest
  | hello => exact HelloHeader.reads h rest
  | gsGeoLocation => exact GSGeoLocationHeader.reads h rest
  | gsTopology => exact GSTopologyHeader.reads h rest
  | authenticationRequest => exact AuthenticationRequestHeader.reads h rest
  | authenticationReply => exact AuthenticationReplyHeader.reads h rest
  | secureHello => exact SecureHelloHeader.reads h rest
  | secureGSGeoLocation => exact SecureGSGeoLocationHeader.reads h rest

variable {c} in
/-- The other classes read exactly what they write. -/
theorem exact_readFields (hc : c ≠ .type) : Exact (c.readFields old) c.serialize := by
  cases c with
  | type => exact absurd rfl hc
  | hello => exact HelloHeader.exact
  | gsGeoLocation => exact GSGeoLocationHeader.exact
  | gsTopology => exact GSTopologyHeader.exact
  | authenticationRequest => exact AuthenticationRequestHeader.exact
  | authenticationReply => exact AuthenticationReplyHeader.exact
  | secureHello => exact SecureHelloHeader.exact
  | secureGSGeoLocation => exact SecureGSGeoLocationHeader.exact

variable {c} {old} {h} {bs} {rest} in
/-- What is read off is as long as what is written, and is what would be written. -/
theorem of_readFields (hr : c.readFields old bs = some (h, rest)) :
    ∃ cs, bs = cs ++ rest ∧ cs.length = c.writtenSize ∧ (c.Known h → c.serialize h = cs) := by
  by_cases hc : c = .type
  · subst hc
    obtain ⟨b, rfl, hb⟩ := TypeHeader.of_deserialize hr
    exact ⟨[b], rfl, rfl, hb⟩
  · exact ⟨c.serialize h, (exact_readFields old hc).iff.mp hr, c.length_serialize h, fun _ => rfl⟩

/-- Deserialize reads the fields if what was read has the announced size. -/
theorem deserialize_of_readFields {c : HeaderClass} {old h : c.Header} {bs rest : Bytes}
    (hr : c.readFields old bs = some (h, rest)) :
    c.deserialize old bs =
      if c.writtenSize = c.getSerializedSize then .ok (h, c.writtenSize) else .error .assertion := by
  obtain ⟨cs, rfl, hlen, -⟩ := of_readFields hr
  have hdist : (cs ++ rest).length - rest.length = c.writtenSize := by
    rw [List.length_append, hlen, Nat.add_sub_cancel]
  simp only [deserialize, hr, hdist]

/-- The fields and the number of bytes that a call of Deserialize comes back with. -/
theorem of_deserialize {c : HeaderClass} {old h : c.Header} {bs : Bytes} {n : ℕ}
    (hd : c.deserialize old bs = .ok (h, n)) :
    ∃ rest, c.readFields old bs = some (h, rest) ∧ n = c.writtenSize ∧
      c.writtenSize = c.getSerializedSize := by
  cases hr : c.readFields old bs with
  | none =>
    rw [deserialize, hr] at hd
    cases hd
  | some p =>
    rw [deserialize_of_readFields hr] at hd
    split_ifs at hd with hsize
    cases hd
    exact ⟨p.2, rfl, rfl, hsize⟩

end HeaderClass

end SAeroRP
