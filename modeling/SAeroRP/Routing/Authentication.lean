import SAeroRP.Routing.Node

/-! The key exchange. An airborne node sends a signed request with its
certificate; the ground station checks it and answers with the shared key,
encrypted for the key in that certificate, in a signed reply. Both sides check
the same four things about a message: certificate, signature, time stamp and
identification. The integers that are signed stand in memory order. -/

namespace SAeroRP

open Library

/-! ### Signed data -/

def setANData (timer : UInt64) (randno : UInt32) (identifier : UInt8) : Block AN_DATA_SIZE :=
  ⟨Wire.writeU64 timer ++ Wire.writeU32 randno ++ Wire.writeU8 identifier, by simp [AN_DATA_SIZE]⟩

def setGSData (timer : UInt64) (gsrandno anrandno : UInt32) (identifier : UInt8)
    (encryptedshkey : Block RSA_KEY_SIZE) : Block GS_DATA_SIZE :=
  ⟨Wire.writeU64 timer ++ Wire.writeU32 gsrandno ++ Wire.writeU32 anrandno ++
    Wire.writeU8 identifier ++ encryptedshkey.toList, by
      simp [GS_DATA_SIZE, AN_DATA_SIZE, RN_SIZE]
      omega⟩

/-- The encrypted key is what follows the first 17 bytes. -/
theorem drop_setGSData (timer : UInt64) (gsrandno anrandno : UInt32) (identifier : UInt8)
    (encryptedshkey : Block RSA_KEY_SIZE) :
    (setGSData timer gsrandno anrandno identifier encryptedshkey).toList.drop 17 =
      encryptedshkey.toList :=
  List.drop_left' (by simp)

namespace Node

variable {β : Type} (E : Env β)

/-! ### Checks -/

def verifyIdentification (identification : UInt8) (n : Node) : Bool :=
  identification.toUInt32 = n.nodeId

/-- Without credentials the pointer to the certificate authority is unset. -/
def verifyCert (clientcert : Option X509) (n : Node) : Except Fault Bool :=
  match n.credentials with
  | none => .error .nullPointer
  | some c => .ok (E.ssl.x509VerifyCert c.caCert clientcert = 1)

def verifyTimeStamp (now timestamp : Time) : Bool :=
  timestamp + Time.seconds 5 ≥ now

def verifySign (data : Bytes) (sign : Block RSA_KEY_SIZE) (senderpubkey : Option PKey) : Bool :=
  E.ssl.digestVerifyFinal senderpubkey data sign = 1

def checkPacketValidity (now : Time) (clientcert : Option X509) (timestamp : Time)
    (identification : UInt8) (data : Bytes) (sign : Block RSA_KEY_SIZE)
    (senderpubkey : Option PKey) (n : Node) : Except Fault Bool := do
  let idstatus := n.verifyIdentification identification
  let certstatus ← n.verifyCert E clientcert
  let timestatus := verifyTimeStamp now timestamp
  let signstatus := verifySign E data sign senderpubkey
  return certstatus && timestatus && signstatus && idstatus

theorem checkPacketValidity_eq_true {n : Node} {now : Time} {cert : Option X509} {timestamp : Time}
    {id : UInt8} {data : Bytes} {sign : Block RSA_KEY_SIZE} {key : Option PKey} :
    n.checkPacketValidity E now cert timestamp id data sign key = .ok true ↔
      n.verifyCert E cert = .ok true ∧ verifyTimeStamp now timestamp = true ∧
        verifySign E data sign key = true ∧ n.verifyIdentification id = true := by
  unfold checkPacketValidity
  cases n.verifyCert E cert with
  | error e => exact ⟨nofun, fun h => by cases h.1⟩
  | ok status =>
    show Except.ok _ = Except.ok _ ↔ _
    simp only [Except.ok.injEq, Bool.and_eq_true]
    tauto

def verifyRandomNo (myrandno : UInt32) (c : Credentials) : Bool := myrandno = c.myRandomNo

/-- The receiver's time stamp. It is a default Time through which FromInteger is
called; the new time that returns is dropped. -/
def receivedTimeStamp (intTimeStamp : UInt64) : Time :=
  let sendertimestamp : Time := 0
  let _ := Time.fromInteger intTimeStamp
  sendertimestamp

/-! ### Shared key -/

/-- The key is decrypted into the array of the shared key. A failed decryption
leaves the array as it was, and its result is not looked at. -/
def decryptSharedKey (c : Credentials) (encryptedkey : Block RSA_KEY_SIZE) (n : Node) :
    Except Fault Node :=
  match E.ssl.rsaPrivateDecrypt c.rsaKeyPair encryptedkey with
  | none => .ok n
  | some key =>
    if h : key.length ≤ SHARED_KEY_SIZE then
      .ok { n with sharedKey := ⟨key ++ n.sharedKey.toList.drop key.length, by simp; omega⟩ }
    else .error .bufferOverflow

variable {E} in
/-- Decryption touches nothing but the shared key. -/
theorem decryptSharedKey_ok {c : Credentials} {encryptedkey : Block RSA_KEY_SIZE} {n m : Node}
    (h : n.decryptSharedKey E c encryptedkey = .ok m) : ∃ key, m = { n with sharedKey := key } := by
  unfold decryptSharedKey at h
  split at h
  · cases h
    exact ⟨n.sharedKey, rfl⟩
  · split_ifs at h
    cases h
    exact ⟨_, rfl⟩

variable {E} in
/-- A full key that is decrypted replaces the old one. -/
theorem decryptSharedKey_of_decrypts {c : Credentials} {encryptedkey : Block RSA_KEY_SIZE}
    {key : Block SHARED_KEY_SIZE} (n : Node)
    (h : E.ssl.rsaPrivateDecrypt c.rsaKeyPair encryptedkey = some key.toList) :
    n.decryptSharedKey E c encryptedkey = .ok { n with sharedKey := key } := by
  have hlen : key.toList.length = SHARED_KEY_SIZE := key.toList_length
  have hrest : n.sharedKey.toList.drop key.toList.length = [] := by
    rw [hlen]
    exact List.drop_of_length_le (by simp)
  simp only [decryptSharedKey, h]
  rw [dif_pos hlen.le]
  congr 2
  apply Subtype.ext
  show key.toList ++ n.sharedKey.toList.drop key.toList.length = key.toList
  rw [hrest, List.append_nil]

/-! ### Sending -/

/-- The certificate field of a header: CERT_SIZE bytes from where the encoding of
the node's certificate stands. -/
def certificateField (chance : Chance) (c : Credentials) : Block CERT_SIZE :=
  Block.copyData chance.byte CERT_SIZE (E.ssl.i2dX509 c.myCert)

/-- The sender's time stamp: whole milliseconds. -/
def sentTimeStamp (now : Time) : UInt64 := UInt64.ofInt now.getMilliSeconds

/-- One copy of the message goes out over every socket of the authentication
interface. -/
def sendOverAuth (message : Bytes) (destination : Ipv4Address) (n : Node) : List Effect :=
  n.authSocketAddresses.toList.map fun j => .sendTo j.1 message destination

def authenticationRequest (now : Time) (chance : Chance) (c : Credentials) :
    AuthenticationRequestHeader :=
  let time := sentTimeStamp now
  let data := setANData time c.myRandomNo 0
  ⟨certificateField E chance c, time, c.myRandomNo, 0,
    E.ssl.digestSign c.rsaKeyPair data.toList⟩

/-- SendAuthenticationRequestPacket. -/
def sendAuthenticationRequestPacket (now : Time) (chance : Chance) (n : Node) :
    Except Fault (List Effect) :=
  match n.credentials with
  | none => .error .nullPointer
  | some c =>
    let hdr := authenticationRequest E now chance c
    let data := setANData hdr.timeStamp hdr.randomNo hdr.identification
    .ok (.signData c.rsaKeyPair.publicKey data.toList ::
      n.sendOverAuth (TypeHeader.serialize ⟨.authenticationRequest, true⟩ ++ hdr.serialize)
        Ipv4Address.groundStation)

def authenticationReply (now : Time) (chance : Chance) (identification : UInt8)
    (anrandno : UInt32) (senderpubkey : PKey) (c : Credentials) (n : Node) :
    AuthenticationReplyHeader :=
  let time := sentTimeStamp now
  let encryptedSharedKey := E.ssl.rsaPublicEncrypt senderpubkey chance.padding n.sharedKey
  let data := setGSData time c.myRandomNo anrandno identification encryptedSharedKey
  ⟨certificateField E chance c, time, c.myRandomNo, anrandno, identification, encryptedSharedKey,
    E.ssl.digestSign c.rsaKeyPair data.toList⟩

/-- SendAuthenticationReplyPacket. -/
def sendAuthenticationReplyPacket (now : Time) (chance : Chance) (source : Ipv4Address)
    (identification : UInt8) (anrandno : UInt32) (senderpubkey : PKey) (n : Node) :
    Except Fault (List Effect) :=
  match n.credentials with
  | none => .error .nullPointer
  | some c =>
    let hdr := n.authenticationReply E now chance identification anrandno senderpubkey c
    let data :=
      setGSData hdr.timeStamp hdr.randomNo hdr.oldRandomNo hdr.identification hdr.sharedKey
    .ok (.signData c.rsaKeyPair.publicKey data.toList ::
      n.sendOverAuth (TypeHeader.serialize ⟨.authenticationReply, true⟩ ++ hdr.serialize) source)

/-! ### Receiving -/

/-- The checks on a request that was read from a packet. -/
def requestValid (now : Time) (hdr : AuthenticationRequestHeader) (n : Node) : Except Fault Bool :=
  let sendercert := E.ssl.d2iX509 hdr.certificate
  let recANdata := setANData hdr.timeStamp hdr.randomNo hdr.identification
  n.checkPacketValidity E now sendercert (receivedTimeStamp hdr.timeStamp) hdr.identification
    recANdata.toList hdr.sign (sendercert.bind X509.pubkey)

/-- The branch of an authentication request, for the header it carries. -/
def processRequest (now : Time) (chance : Chance) (sender : Ipv4Address)
    (hdr : AuthenticationRequestHeader) (n : Node) : Except Fault (Node × List Effect) := do
  -- the RSA structure is taken out of the sender's key before any check
  match (E.ssl.d2iX509 hdr.certificate).bind X509.pubkey with
  | none => throw .nullPointer
  | some senderpubkey =>
    if ← n.requestValid E now hdr then
      let senderidentification := (sender % 3232235777).toUInt8
      let effects ← n.sendAuthenticationReplyPacket E now chance sender senderidentification
        hdr.randomNo senderpubkey
      return (n, effects)
    else return (n, [])

def recvAuthenticationRequest (now : Time) (chance : Chance) (d : Datagram) (n : Node) :
    Except Fault (Node × List Effect) := do
  let (hdr, _) ← d.packet.removeHeader AuthenticationRequestHeader.deserialize
  n.processRequest E now chance d.sender hdr

/-- The checks of CheckPacketValidity on a reply that was read from a packet. -/
def replyValid (now : Time) (hdr : AuthenticationReplyHeader) (n : Node) : Except Fault Bool :=
  let sendercert := E.ssl.d2iX509 hdr.certificate
  let recGSdata := setGSData hdr.timeStamp hdr.randomNo hdr.oldRandomNo hdr.identification
    hdr.sharedKey
  n.checkPacketValidity E now sendercert (receivedTimeStamp hdr.timeStamp) hdr.identification
    recGSdata.toList hdr.sign (sendercert.bind X509.pubkey)

/-- All the checks on a reply: CheckPacketValidity and VerifyRandomNo. -/
def replyAccepted (now : Time) (hdr : AuthenticationReplyHeader) (n : Node) :
    Except Fault Bool := do
  let valid ← n.replyValid E now hdr
  match n.credentials with
  | none => throw .nullPointer
  | some c => return valid && verifyRandomNo hdr.oldRandomNo c

/-- The branch of an authentication reply, for the header it carries. -/
def processReply (now : Time) (hdr : AuthenticationReplyHeader) (n : Node) :
    Except Fault (Node × List Effect) := do
  if ← n.replyAccepted E now hdr then
    match n.credentials with
    | none => throw .nullPointer
    | some c =>
      let n ← n.decryptSharedKey E c hdr.sharedKey
      return ({ n with authenticationStatus := .auth }, [])
  else return ({ n with authenticationStatus := .unauth }, [])

def recvAuthenticationReply (now : Time) (d : Datagram) (n : Node) :
    Except Fault (Node × List Effect) := do
  let (hdr, _) ← d.packet.removeHeader AuthenticationReplyHeader.deserialize
  n.processReply E now hdr

/-! ### Inversion -/

@[simp] theorem gateways_sendOverAuth (message : Bytes) (destination : Ipv4Address) (n : Node) :
    Effect.gateways (n.sendOverAuth message destination) = [] := by
  simp [Effect.gateways, sendOverAuth, List.filterMap_map]

@[simp] theorem signed_sendOverAuth (message : Bytes) (destination : Ipv4Address) (n : Node) :
    Effect.signed (n.sendOverAuth message destination) = [] := by
  simp [Effect.signed, sendOverAuth, List.filterMap_map]

section
variable {E} {now : Time} {chance : Chance} {n m : Node} {es : List Effect}

/-- A reply is signed data that goes out over the authentication interface. -/
theorem sendAuthenticationReplyPacket_ok {source : Ipv4Address} {identification : UInt8}
    {anrandno : UInt32} {key : PKey}
    (h : n.sendAuthenticationReplyPacket E now chance source identification anrandno key = .ok es) :
    ∃ c message, n.credentials = some c ∧
      es = .signData c.rsaKeyPair.publicKey (setGSData (sentTimeStamp now) c.myRandomNo anrandno
        identification (E.ssl.rsaPublicEncrypt key chance.padding n.sharedKey)).toList ::
          n.sendOverAuth message source := by
  unfold sendAuthenticationReplyPacket at h
  split at h
  · cases h
  · rename_i c hc
    cases h
    exact ⟨c, _, hc, rfl⟩

theorem sendAuthenticationRequestPacket_ok
    (h : n.sendAuthenticationRequestPacket E now chance = .ok es) :
    ∃ c message, n.credentials = some c ∧
      es = .signData c.rsaKeyPair.publicKey
        (setANData (sentTimeStamp now) c.myRandomNo 0).toList ::
          n.sendOverAuth message Ipv4Address.groundStation := by
  unfold sendAuthenticationRequestPacket at h
  split at h
  · cases h
  · rename_i c hc
    cases h
    exact ⟨c, _, hc, rfl⟩

/-- A request changes nothing, and only a valid one is answered. -/
theorem processRequest_ok {sender : Ipv4Address} {hdr : AuthenticationRequestHeader}
    (h : n.processRequest E now chance sender hdr = .ok (m, es)) :
    m = n ∧ (es = [] ∨ ∃ identification key,
      (E.ssl.d2iX509 hdr.certificate).bind X509.pubkey = some key ∧
      n.requestValid E now hdr = .ok true ∧
      n.sendAuthenticationReplyPacket E now chance sender identification hdr.randomNo key =
        .ok es) := by
  unfold processRequest at h
  split at h
  · cases h
  · rename_i key hkey
    obtain ⟨valid, hvalid, h⟩ := bind_eq_ok.mp h
    split_ifs at h with hv
    · obtain ⟨sent, hsend, h⟩ := bind_eq_ok.mp h
      cases h
      rw [hv] at hvalid
      exact ⟨rfl, .inr ⟨_, key, hkey, hvalid, hsend⟩⟩
    · cases h
      exact ⟨rfl, .inl rfl⟩

theorem processReply_of_accepted {hdr : AuthenticationReplyHeader} {c : Credentials} {k : Node}
    (haccepted : n.replyAccepted E now hdr = .ok true) (hc : n.credentials = some c)
    (hk : n.decryptSharedKey E c hdr.sharedKey = .ok k) :
    n.processReply E now hdr = .ok ({ k with authenticationStatus := .auth }, []) := by
  rw [processReply, haccepted, ok_bind, if_pos rfl, hc]
  simp only [hk, ok_bind]
  rfl

/-- A reply that is accepted has its key decrypted and makes the node
authenticated; any other makes it unauthenticated. -/
theorem processReply_ok {hdr : AuthenticationReplyHeader}
    (h : n.processReply E now hdr = .ok (m, es)) :
    es = [] ∧ ((∃ c k, n.replyAccepted E now hdr = .ok true ∧ n.credentials = some c ∧
        n.decryptSharedKey E c hdr.sharedKey = .ok k ∧
        m = { k with authenticationStatus := .auth }) ∨
      n.replyAccepted E now hdr = .ok false ∧ m = { n with authenticationStatus := .unauth }) := by
  obtain ⟨accepted, hacc, h⟩ := bind_eq_ok.mp h
  split_ifs at h with ht
  · rw [ht] at hacc
    split at h
    · cases h
    · rename_i c hc
      obtain ⟨k, hk, h⟩ := bind_eq_ok.mp h
      cases h
      exact ⟨rfl, .inl ⟨c, k, hacc, hc, hk, rfl⟩⟩
  · rw [Bool.not_eq_true] at ht
    rw [ht] at hacc
    cases h
    exact ⟨rfl, .inr ⟨hacc, rfl⟩⟩

end

end Node

end SAeroRP
