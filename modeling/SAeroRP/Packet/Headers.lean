import SAeroRP.Ns3.Basic

/-! The headers of the routing protocol and of its key exchange. Integers are
written least significant byte first, addresses in network order and byte arrays
as they stand. Every header is read back from what it writes. -/

namespace SAeroRP

open Library

/-! ### Sizes -/

def RSA_KEY_SIZE : ℕ := 256
def SHARED_KEY_SIZE : ℕ := 32
def CERT_SIZE : ℕ := 727
def RN_SIZE : ℕ := 4
def AN_DATA_SIZE : ℕ := 13
def GS_DATA_SIZE : ℕ := AN_DATA_SIZE + RN_SIZE + RSA_KEY_SIZE
def TAG_SIZE : ℕ := 16
def HELLO_PACKET_SIZE : ℕ := 25
def GS_PACKET_SIZE : ℕ := 44
def AAD_LENGTH : ℕ := 8
def IV_LENGTH : ℕ := 16
def PACKET_DATA_LEN_BEFORE_ENCRYPTON : ℕ := 1000
def PACKET_DATA_LEN_AFTER_ENCRYPTON : ℕ := 1016
def PACKET_DATA_LEN_FINAL : ℕ := 1024

/-! ### Fields -/

namespace Wire

def writeU8 (n : UInt8) : Bytes := [n]
def writeU32 (n : UInt32) : Bytes := leBytes 4 n.toNat
def writeU64 (n : UInt64) : Bytes := leBytes 8 n.toNat

def readU8 : Reader UInt8 := (fun bs => UInt8.ofNat (leValue bs)) <$> Reader.take 1
def readU32 : Reader UInt32 := (fun bs => UInt32.ofNat (leValue bs)) <$> Reader.take 4
def readU64 : Reader UInt64 := (fun bs => UInt64.ofNat (leValue bs)) <$> Reader.take 8
def readAddress : Reader Ipv4Address := Ipv4Address.deserialize <$> Reader.take 4

def readBlock (n : ℕ) : Reader (Block n) := fun bs =>
  if h : n ≤ bs.length then some (⟨bs.take n, by simp [h]⟩, bs.drop n) else none

@[simp] theorem length_writeU8 (n : UInt8) : (writeU8 n).length = 1 := rfl
@[simp] theorem length_writeU32 (n : UInt32) : (writeU32 n).length = 4 := length_leBytes _ _
@[simp] theorem length_writeU64 (n : UInt64) : (writeU64 n).length = 8 := length_leBytes _ _

open Reader (Reads reads_take)

theorem reads_u8 (n : UInt8) : Reads readU8 (writeU8 n) n := by
  have h := (reads_take (length_writeU8 n)).map fun bs => UInt8.ofNat (leValue bs)
  have hn : leValue (writeU8 n) = n.toNat := by simp [writeU8, leValue]
  rwa [hn, UInt8.ofNat_toNat] at h

theorem reads_u32 (n : UInt32) : Reads readU32 (writeU32 n) n := by
  have h := (reads_take (length_writeU32 n)).map fun bs => UInt32.ofNat (leValue bs)
  have hn : leValue (writeU32 n) = n.toNat := leValue_leBytes_of_lt n.toNat_lt
  rwa [hn, UInt32.ofNat_toNat] at h

theorem reads_u64 (n : UInt64) : Reads readU64 (writeU64 n) n := by
  have h := (reads_take (length_writeU64 n)).map fun bs => UInt64.ofNat (leValue bs)
  have hn : leValue (writeU64 n) = n.toNat := leValue_leBytes_of_lt n.toNat_lt
  rwa [hn, UInt64.ofNat_toNat] at h

theorem reads_address (a : Ipv4Address) : Reads readAddress a.serialize a := by
  have h := (reads_take a.length_serialize).map Ipv4Address.deserialize
  rwa [Ipv4Address.deserialize_serialize] at h

theorem reads_block {n : ℕ} (b : Block n) : Reads (readBlock n) b.toList b := by
  intro rest
  obtain ⟨bs, rfl⟩ := b
  simp [readBlock, List.Vector.toList]

end Wire

open Wire
open Reader (Reads reads_pure)

/-! ### Type header -/

inductive MessageType where
  | hello
  | gsGeoLocation
  | gsTopology
  | authenticationRequest
  | authenticationReply
  | secureHello
  | secureGSGeoLocation
  deriving DecidableEq, Repr

namespace MessageType

def toU8 : MessageType → UInt8
  | hello => 1
  | gsGeoLocation => 2
  | gsTopology => 3
  | authenticationRequest => 4
  | authenticationReply => 5
  | secureHello => 6
  | secureGSGeoLocation => 7

def ofU8 (b : UInt8) : Option MessageType :=
  [hello, gsGeoLocation, gsTopology, authenticationRequest, authenticationReply, secureHello,
    secureGSGeoLocation].find? fun t => t.toU8 = b

@[simp] theorem ofU8_toU8 (t : MessageType) : ofU8 t.toU8 = some t := by cases t <;> decide

end MessageType

structure TypeHeader where
  type : MessageType := .hello
  valid : Bool := true
  deriving DecidableEq, Repr

namespace TypeHeader

def getSerializedSize : ℕ := 1

def serialize (h : TypeHeader) : Bytes := writeU8 h.type.toU8

/-- An unknown type byte leaves the type as it was and marks the header invalid. -/
def deserialize (h : TypeHeader) : Reader TypeHeader := do
  let type ← readU8
  return match MessageType.ofU8 type with
  | some t => ⟨t, true⟩
  | none => { h with valid := false }

theorem deserialize_cons (h : TypeHeader) (b : UInt8) (rest : Bytes) :
    h.deserialize (b :: rest) = some (match MessageType.ofU8 b with
      | some t => ⟨t, true⟩
      | none => { h with valid := false }, rest) := by
  have hread : readU8 (b :: rest) = some (b, rest) := reads_u8 b rest
  simp only [deserialize, bind, StateT.bind, hread]
  rfl

theorem reads (h : TypeHeader) (t : MessageType) :
    Reads h.deserialize (serialize ⟨t, true⟩) ⟨t, true⟩ := by
  intro rest
  have hr := h.deserialize_cons t.toU8 rest
  rwa [MessageType.ofU8_toU8] at hr

end TypeHeader

/-! ### Hello -/

structure HelloHeader where
  originPosx : UInt32
  originPosy : UInt32
  originPosz : UInt32
  velSign : UInt8
  originVelx : UInt32
  originVely : UInt32
  originVelz : UInt32
  deriving DecidableEq, Repr

namespace HelloHeader

def getSerializedSize : ℕ := 6 * 4 + 1

def serialize (h : HelloHeader) : Bytes :=
  [writeU32 h.originPosx, writeU32 h.originPosy, writeU32 h.originPosz, writeU8 h.velSign,
    writeU32 h.originVelx, writeU32 h.originVely, writeU32 h.originVelz].flatten

def deserialize : Reader HelloHeader := do
  let x ← readU32
  let y ← readU32
  let z ← readU32
  let sign ← readU8
  let vx ← readU32
  let vy ← readU32
  let vz ← readU32
  return ⟨x, y, z, sign, vx, vy, vz⟩

theorem length_serialize (h : HelloHeader) : h.serialize.length = getSerializedSize := by
  simp [serialize, getSerializedSize]

theorem reads (h : HelloHeader) : Reads deserialize h.serialize h :=
  (reads_u32 _).bind <| (reads_u32 _).bind <| (reads_u32 _).bind <| (reads_u8 _).bind <|
    (reads_u32 _).bind <| (reads_u32 _).bind <| (reads_u32 _).bind <| reads_pure _

end HelloHeader

/-! ### Ground station geolocation -/

structure GSGeoLocationHeader where
  node : Ipv4Address
  nodePosx : UInt32
  nodePosy : UInt32
  nodePosz : UInt32
  nodeVelocityx : UInt32
  nodeVelocityy : UInt32
  nodeVelocityz : UInt32
  startTime : Int64 := 0
  endTime : Int64 := 0
  deriving DecidableEq

namespace GSGeoLocationHeader

def getSerializedSize : ℕ := 4 + 6 * 4 + 2 * 8

def serialize (h : GSGeoLocationHeader) : Bytes :=
  [h.node.serialize, writeU32 h.nodePosx, writeU32 h.nodePosy, writeU32 h.nodePosz,
    writeU32 h.nodeVelocityx, writeU32 h.nodeVelocityy, writeU32 h.nodeVelocityz,
    writeU64 h.startTime.toUInt64, writeU64 h.endTime.toUInt64].flatten

def deserialize : Reader GSGeoLocationHeader := do
  let node ← readAddress
  let x ← readU32
  let y ← readU32
  let z ← readU32
  let vx ← readU32
  let vy ← readU32
  let vz ← readU32
  let startTime ← readU64
  let endTime ← readU64
  return ⟨node, x, y, z, vx, vy, vz, startTime.toInt64, endTime.toInt64⟩

theorem length_serialize (h : GSGeoLocationHeader) : h.serialize.length = getSerializedSize := by
  simp [serialize, getSerializedSize]

theorem reads (h : GSGeoLocationHeader) : Reads deserialize h.serialize h :=
  (reads_address _).bind <| (reads_u32 _).bind <| (reads_u32 _).bind <| (reads_u32 _).bind <|
    (reads_u32 _).bind <| (reads_u32 _).bind <| (reads_u32 _).bind <| (reads_u64 _).bind <|
    (reads_u64 _).bind <| reads_pure _

end GSGeoLocationHeader

/-! ### Ground station topology -/

structure GSTopologyHeader where
  node1 : Ipv4Address
  node2 : Ipv4Address
  linkCost : UInt32 := 0
  linkStartTime : Int64 := 0
  linkEndTime : Int64 := 0
  deriving DecidableEq

namespace GSTopologyHeader

def getSerializedSize : ℕ := 16

def serialize (h : GSTopologyHeader) : Bytes :=
  [h.node1.serialize, h.node2.serialize, writeU32 h.linkCost, writeU64 h.linkStartTime.toUInt64,
    writeU64 h.linkEndTime.toUInt64].flatten

/-- Deserialize up to its assertion on the number of bytes that were read. -/
def deserialize : Reader GSTopologyHeader := do
  let node1 ← readAddress
  let node2 ← readAddress
  let linkCost ← readU32
  let linkStartTime ← readU64
  let linkEndTime ← readU64
  return ⟨node1, node2, linkCost, linkStartTime.toInt64, linkEndTime.toInt64⟩

/-- What is written is longer than the size that is announced. -/
theorem length_serialize (h : GSTopologyHeader) : h.serialize.length = 28 := by
  simp [serialize]

theorem reads (h : GSTopologyHeader) : Reads deserialize h.serialize h :=
  (reads_address _).bind <| (reads_address _).bind <| (reads_u32 _).bind <| (reads_u64 _).bind <|
    (reads_u64 _).bind <| reads_pure _

end GSTopologyHeader

/-! ### Authentication request and reply -/

structure AuthenticationRequestHeader where
  certificate : Block CERT_SIZE
  timeStamp : UInt64
  randomNo : UInt32
  identification : UInt8
  sign : Block RSA_KEY_SIZE
  deriving DecidableEq

namespace AuthenticationRequestHeader

def getSerializedSize : ℕ := CERT_SIZE + 8 + 4 + 1 + RSA_KEY_SIZE

def serialize (h : AuthenticationRequestHeader) : Bytes :=
  [h.certificate.toList, writeU64 h.timeStamp, writeU32 h.randomNo, writeU8 h.identification,
    h.sign.toList].flatten

def deserialize : Reader AuthenticationRequestHeader := do
  let certificate ← readBlock CERT_SIZE
  let timeStamp ← readU64
  let randomNo ← readU32
  let identification ← readU8
  let sign ← readBlock RSA_KEY_SIZE
  return ⟨certificate, timeStamp, randomNo, identification, sign⟩

theorem length_serialize (h : AuthenticationRequestHeader) :
    h.serialize.length = getSerializedSize := by
  simp [serialize, getSerializedSize]
  omega

theorem reads (h : AuthenticationRequestHeader) : Reads deserialize h.serialize h :=
  (reads_block _).bind <| (reads_u64 _).bind <| (reads_u32 _).bind <| (reads_u8 _).bind <|
    (reads_block _).bind <| reads_pure _

end AuthenticationRequestHeader

structure AuthenticationReplyHeader where
  certificate : Block CERT_SIZE
  timeStamp : UInt64
  randomNo : UInt32
  oldRandomNo : UInt32
  identification : UInt8
  sharedKey : Block RSA_KEY_SIZE
  sign : Block RSA_KEY_SIZE
  deriving DecidableEq

namespace AuthenticationReplyHeader

def getSerializedSize : ℕ := CERT_SIZE + 8 + 2 * 4 + 1 + RSA_KEY_SIZE + RSA_KEY_SIZE

def serialize (h : AuthenticationReplyHeader) : Bytes :=
  [h.certificate.toList, writeU64 h.timeStamp, writeU32 h.randomNo, writeU32 h.oldRandomNo,
    writeU8 h.identification, h.sharedKey.toList, h.sign.toList].flatten

def deserialize : Reader AuthenticationReplyHeader := do
  let certificate ← readBlock CERT_SIZE
  let timeStamp ← readU64
  let randomNo ← readU32
  let oldRandomNo ← readU32
  let identification ← readU8
  let sharedKey ← readBlock RSA_KEY_SIZE
  let sign ← readBlock RSA_KEY_SIZE
  return ⟨certificate, timeStamp, randomNo, oldRandomNo, identification, sharedKey, sign⟩

theorem length_serialize (h : AuthenticationReplyHeader) :
    h.serialize.length = getSerializedSize := by
  simp [serialize, getSerializedSize]
  omega

theorem reads (h : AuthenticationReplyHeader) : Reads deserialize h.serialize h :=
  (reads_block _).bind <| (reads_u64 _).bind <| (reads_u32 _).bind <| (reads_u32 _).bind <|
    (reads_u8 _).bind <| (reads_block _).bind <| (reads_block _).bind <| reads_pure _

end AuthenticationReplyHeader

/-! ### Encrypted headers -/

structure SecureHelloHeader where
  cipher : Block HELLO_PACKET_SIZE
  tag : Block TAG_SIZE
  deriving DecidableEq

namespace SecureHelloHeader

def getSerializedSize : ℕ := HELLO_PACKET_SIZE + TAG_SIZE

def serialize (h : SecureHelloHeader) : Bytes := [h.cipher.toList, h.tag.toList].flatten

def deserialize : Reader SecureHelloHeader := do
  let cipher ← readBlock HELLO_PACKET_SIZE
  let tag ← readBlock TAG_SIZE
  return ⟨cipher, tag⟩

theorem serialize_eq (h : SecureHelloHeader) : h.serialize = h.cipher.toList ++ h.tag.toList := by
  simp [serialize]

theorem length_serialize (h : SecureHelloHeader) : h.serialize.length = getSerializedSize := by
  simp [serialize, getSerializedSize]

theorem reads (h : SecureHelloHeader) : Reads deserialize h.serialize h :=
  (reads_block _).bind <| (reads_block _).bind <| reads_pure _

end SecureHelloHeader

structure SecureGSGeoLocationHeader where
  cipher : Block GS_PACKET_SIZE
  tag : Block TAG_SIZE
  deriving DecidableEq

namespace SecureGSGeoLocationHeader

def getSerializedSize : ℕ := GS_PACKET_SIZE + TAG_SIZE

def serialize (h : SecureGSGeoLocationHeader) : Bytes := [h.cipher.toList, h.tag.toList].flatten

def deserialize : Reader SecureGSGeoLocationHeader := do
  let cipher ← readBlock GS_PACKET_SIZE
  let tag ← readBlock TAG_SIZE
  return ⟨cipher, tag⟩

theorem serialize_eq (h : SecureGSGeoLocationHeader) :
    h.serialize = h.cipher.toList ++ h.tag.toList := by
  simp [serialize]

theorem length_serialize (h : SecureGSGeoLocationHeader) :
    h.serialize.length = getSerializedSize := by
  simp [serialize, getSerializedSize]

theorem reads (h : SecureGSGeoLocationHeader) : Reads deserialize h.serialize h :=
  (reads_block _).bind <| (reads_block _).bind <| reads_pure _

end SecureGSGeoLocationHeader

end SAeroRP
