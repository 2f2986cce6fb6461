import SAeroRP.Routing.SignedData

/-! What a signature binds. The sender signs the data that SetANData or SetGSData builds
from the fields it puts in the header, the receiver checks the signature on the data it
builds from the fields it reads there, and these are the same data only for the same
fields. -/

namespace SAeroRP.Signatures

open Library Node
open Wire (exact_u8 exact_u32 exact_u64)

/-! ### Fields -/

/-- What the signature of a request is about. -/
structure RequestFields where
  timer : UInt64
  randno : UInt32
  identifier : UInt8

/-- What the signature of a reply is about. -/
structure ReplyFields where
  timer : UInt64
  gsrandno : UInt32
  anrandno : UInt32
  identifier : UInt8
  encryptedshkey : Block RSA_KEY_SIZE

namespace RequestFields

def data (f : RequestFields) : Block AN_DATA_SIZE :=
  SAeroRP.setANData f.timer f.randno f.identifier

/-- The calls of SetANData. -/
def build (f : RequestFields) (ANdata : Writes UInt8) : Option (Writes UInt8) :=
  SignedData.setANData f.timer f.randno f.identifier ANdata AN_DATA_SIZE

/-- The header SendAuthenticationRequestPacket makes. -/
def header (f : RequestFields) (certificate : Block CERT_SIZE) (sign : Block RSA_KEY_SIZE) :
    AuthenticationRequestHeader := ⟨certificate, f.timer, f.randno, f.identifier, sign⟩

/-- What RecvAERORP reads from the header of a request. -/
def received (hdr : AuthenticationRequestHeader) : RequestFields :=
  ⟨hdr.timeStamp, hdr.randomNo, hdr.identification⟩

theorem data_injective : Function.Injective data := by
  intro ⟨timer, randno, identifier⟩ ⟨timer', randno', identifier'⟩ h
  have hbytes := congrArg List.Vector.toList h
  simp only [data, SAeroRP.setANData, List.Vector.toList, List.append_assoc] at hbytes
  obtain ⟨rfl, hrandno⟩ := exact_u64.append_inj hbytes
  obtain ⟨rfl, hidentifier⟩ := exact_u32.append_inj hrandno
  obtain rfl : identifier = identifier' := List.singleton_inj.mp hidentifier
  rfl

end RequestFields

namespace ReplyFields

def data (f : ReplyFields) : Block GS_DATA_SIZE :=
  SAeroRP.setGSData f.timer f.gsrandno f.anrandno f.identifier f.encryptedshkey

/-- The calls of SetGSData. -/
def build (f : ReplyFields) (GSdata : Writes UInt8) : Option (Writes UInt8) :=
  SignedData.setGSData f.timer f.gsrandno f.anrandno f.identifier f.encryptedshkey GSdata
    GS_DATA_SIZE

/-- The header SendAuthenticationReplyPacket makes. -/
def header (f : ReplyFields) (certificate : Block CERT_SIZE) (sign : Block RSA_KEY_SIZE) :
    AuthenticationReplyHeader :=
  ⟨certificate, f.timer, f.gsrandno, f.anrandno, f.identifier, f.encryptedshkey, sign⟩

/-- What RecvAERORP reads from the header of a reply. -/
def received (hdr : AuthenticationReplyHeader) : ReplyFields :=
  ⟨hdr.timeStamp, hdr.randomNo, hdr.oldRandomNo, hdr.identification, hdr.sharedKey⟩

theorem data_injective : Function.Injective data := by
  rintro ⟨timer, gsrandno, anrandno, identifier, key⟩ ⟨timer', gsrandno', anrandno', identifier',
    key'⟩ h
  have hbytes : (Wire.writeU64 timer ++ Wire.writeU32 gsrandno ++ Wire.writeU32 anrandno ++
      Wire.writeU8 identifier ++ key.toList) = _ := congrArg List.Vector.toList h
  simp only [List.append_assoc] at hbytes
  obtain ⟨rfl, hgsrandno⟩ := exact_u64.append_inj hbytes
  obtain ⟨rfl, hanrandno⟩ := exact_u32.append_inj hgsrandno
  obtain ⟨rfl, hidentifier⟩ := exact_u32.append_inj hanrandno
  obtain ⟨rfl, hkey⟩ := exact_u8.append_inj hidentifier
  obtain rfl : key = key' := Subtype.ext hkey
  rfl

end ReplyFields

/-! ### Both sides -/

/-- The sender's array, whatever it held, is written in full, every byte once; the receiver
writes the same into its own from the header it has read; other fields give other data. -/
structure Binds {F H : Type} {size : ℕ} (build : F → Writes UInt8 → Option (Writes UInt8))
    (data : F → Block size) (header : F → Block CERT_SIZE → Block RSA_KEY_SIZE → H)
    (received : H → F) (serialize : H → Bytes) (deserialize : Reader H) : Prop where
  sent : ∀ f (array : Block size),
    build f (.ofList array.toList) = some ⟨(data f).toList, List.range size⟩
  received : ∀ f certificate sign (rest : Bytes), ∃ hdr,
    deserialize (serialize (header f certificate sign) ++ rest) = some (hdr, rest) ∧
      ∀ array : Block size, build (received hdr) (.ofList array.toList) =
        some ⟨(data f).toList, List.range size⟩
  injective : Function.Injective data

theorem request_binds : Binds RequestFields.build RequestFields.data RequestFields.header
    RequestFields.received AuthenticationRequestHeader.serialize
    AuthenticationRequestHeader.deserialize where
  sent f := SignedData.setANData_eq f.timer f.randno f.identifier
  received f _ _ rest := ⟨_, AuthenticationRequestHeader.reads _ rest,
    SignedData.setANData_eq f.timer f.randno f.identifier⟩
  injective := RequestFields.data_injective

theorem reply_binds : Binds ReplyFields.build ReplyFields.data ReplyFields.header
    ReplyFields.received AuthenticationReplyHeader.serialize
    AuthenticationReplyHeader.deserialize where
  sent f := SignedData.setGSData_eq f.timer f.gsrandno f.anrandno f.identifier f.encryptedshkey
  received f _ _ rest := ⟨_, AuthenticationReplyHeader.reads _ rest,
    SignedData.setGSData_eq f.timer f.gsrandno f.anrandno f.identifier f.encryptedshkey⟩
  injective := ReplyFields.data_injective

variable {β : Type}

/-- A node signs the data of the fields it sends. -/
structure Signs (E : Env β) : Prop where
  request : ∀ (now : Time) (chance : Chance) (c : Credentials), ∃ f : RequestFields,
    f.timer = sentTimeStamp now ∧ f.randno = c.myRandomNo ∧
      authenticationRequest E now chance c =
        f.header (certificateField E chance c) (E.ssl.digestSign c.rsaKeyPair f.data.toList)
  reply : ∀ (now : Time) (chance : Chance) (identification : UInt8) (anrandno : UInt32)
    (senderpubkey : PKey) (c : Credentials) (n : Node), ∃ f : ReplyFields,
    f.timer = sentTimeStamp now ∧ f.gsrandno = c.myRandomNo ∧ f.anrandno = anrandno ∧
      f.identifier = identification ∧
      n.authenticationReply E now chance identification anrandno senderpubkey c =
        f.header (certificateField E chance c) (E.ssl.digestSign c.rsaKeyPair f.data.toList)

/-- A node checks the signature on the data of the fields it has received. -/
structure Verifies (E : Env β) : Prop where
  request : ∀ (now : Time) (hdr : AuthenticationRequestHeader) (n : Node),
    n.requestValid E now hdr = .ok true →
      verifySign E (RequestFields.received hdr).data.toList hdr.sign
        ((E.ssl.d2iX509 hdr.certificate).bind X509.pubkey) = true
  reply : ∀ (now : Time) (hdr : AuthenticationReplyHeader) (n : Node),
    n.replyValid E now hdr = .ok true →
      verifySign E (ReplyFields.received hdr).data.toList hdr.sign
        ((E.ssl.d2iX509 hdr.certificate).bind X509.pubkey) = true

/-- What is signed and what is checked are the same data on both sides, for requests and
replies, and bind every field. -/
theorem signatures_bind (E : Env β) :
    Binds RequestFields.build RequestFields.data RequestFields.header RequestFields.received
        AuthenticationRequestHeader.serialize AuthenticationRequestHeader.deserialize ∧
      Binds ReplyFields.build ReplyFields.data ReplyFields.header ReplyFields.received
        AuthenticationReplyHeader.serialize AuthenticationReplyHeader.deserialize ∧
      Signs E ∧ Verifies E := by
  refine ⟨request_binds, reply_binds, ⟨fun now _ c => ?_, fun now chance id anrandno key c n => ?_⟩,
    ⟨fun now hdr n h => ?_, fun now hdr n h => ?_⟩⟩
  · exact ⟨⟨sentTimeStamp now, c.myRandomNo, 0⟩, rfl, rfl, rfl⟩
  · exact ⟨⟨sentTimeStamp now, c.myRandomNo, anrandno, id,
      E.ssl.rsaPublicEncrypt key chance.padding n.sharedKey⟩, rfl, rfl, rfl, rfl, rfl⟩
  · exact ((checkPacketValidity_eq_true E).mp h).2.2.1
  · exact ((checkPacketValidity_eq_true E).mp h).2.2.1

end SAeroRP.Signatures
