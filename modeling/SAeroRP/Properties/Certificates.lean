import SAeroRP.Library.Writes
import SAeroRP.Crypto.CertificateAuthority
import SAeroRP.Routing.Authentication
import SAeroRP.System.Sample

/-! The way of a certificate from node to node. Its encoding, of any length, goes into a
field of CERT_SIZE bytes: a longer encoding is cut off, and for a shorter one the header
reads on past the end of the array that holds it. The encoding grows by a byte with the
certificate that has the serial number 128. -/

namespace SAeroRP.Certificates

open Library Node

variable {β : Type}

/-- The copies of the sender: the encoder's buffer goes to an array of the same length, and
CERT_SIZE bytes of that go to the header. -/
def fillHeader (encoding certarray : Bytes) (m_cert : Block CERT_SIZE) : Option (Writes UInt8) := do
  let certarray ← (Writes.ofList certarray).copyLoop 0 encoding.length encoding
  (Writes.ofList m_cert.toList).copyLoop 0 CERT_SIZE certarray.elems

section
variable {encoding certarray : Bytes} (h : certarray.length = encoding.length)
  (m_cert : Block CERT_SIZE)
include h

theorem fillHeader_eq : fillHeader encoding certarray m_cert =
    (Writes.ofList m_cert.toList).copyLoop 0 CERT_SIZE encoding := by
  rw [fillHeader, Writes.copyLoop_ofList h le_rfl, List.take_length]
  rfl

theorem fillHeader_of_le (hlen : CERT_SIZE ≤ encoding.length) :
    fillHeader encoding certarray m_cert =
      some ⟨encoding.take CERT_SIZE, List.range CERT_SIZE⟩ := by
  rw [fillHeader_eq h, Writes.copyLoop_ofList m_cert.toList_length hlen]

/-- The header reads past the end of a shorter array. -/
theorem fillHeader_eq_none (hlen : encoding.length < CERT_SIZE) :
    fillHeader encoding certarray m_cert = none := by
  rw [fillHeader_eq h]
  exact Writes.copyLoop_eq_none hlen _

end

/-! ### Survival -/

/-- The certificate goes into the header without a read past an array, the field holds the
whole encoding, and the receiver of a request or a reply finds the certificate in it. -/
structure Survives (E : Env β) (c : Credentials) : Prop where
  filled : ∀ (certarray : Bytes) (m_cert : Block CERT_SIZE),
    certarray.length = (E.ssl.i2dX509 c.myCert).length →
    ∃ w, fillHeader (E.ssl.i2dX509 c.myCert) certarray m_cert = some w ∧
      ∀ chance, w.elems = (certificateField E chance c).toList
  whole : ∀ chance, E.ssl.i2dX509 c.myCert <+: (certificateField E chance c).toList
  request : ∀ (now : Time) (chance : Chance) (rest : Bytes), ∃ hdr,
    AuthenticationRequestHeader.deserialize
        ((authenticationRequest E now chance c).serialize ++ rest) = some (hdr, rest) ∧
      E.ssl.d2iX509 hdr.certificate = some c.myCert
  reply : ∀ (now : Time) (chance : Chance) (identification : UInt8) (anrandno : UInt32)
    (senderpubkey : PKey) (n : Node) (rest : Bytes), ∃ hdr,
    AuthenticationReplyHeader.deserialize
        ((n.authenticationReply E now chance identification anrandno senderpubkey c).serialize ++
          rest) = some (hdr, rest) ∧
      E.ssl.d2iX509 hdr.certificate = some c.myCert

/-- What is used of the encoding of a certificate: it has `base` bytes besides the serial
number, and is found at the start of any field. -/
structure Der (ssl : OpenSsl) (base : ℕ) (cert : X509) : Prop where
  length : (ssl.i2dX509 cert).length = base + integerLength cert.serialNumber.toNat
  parse : ∀ b : Block CERT_SIZE, ssl.i2dX509 cert <+: b.toList → ssl.d2iX509 b = some cert

section
variable {E : Env β} {c : Credentials} {base : ℕ}

theorem survives_iff_length (hder : Der E.ssl base c.myCert) :
    Survives E c ↔ (E.ssl.i2dX509 c.myCert).length = CERT_SIZE := by
  constructor
  · intro h
    have chance : Chance := ⟨⟨0, 0, 0⟩, fun _ => 0, 0, 0⟩
    have hle : (E.ssl.i2dX509 c.myCert).length ≤ CERT_SIZE := by
      have hprefix := (h.whole chance).length_le
      rwa [List.Vector.toList_length] at hprefix
    refine le_antisymm hle (le_of_not_gt fun hlt => ?_)
    obtain ⟨w, hw, -⟩ := h.filled (E.ssl.i2dX509 c.myCert) (certificateField E chance c) rfl
    rw [fillHeader_eq_none rfl _ hlt] at hw
    cases hw
  · intro h
    have hfield : ∀ chance, (certificateField E chance c).toList = E.ssl.i2dX509 c.myCert :=
      fun chance => by
        rw [certificateField, Block.toList_copyData chance.byte h.ge, List.take_of_length_le h.le]
    have hparse : ∀ chance, E.ssl.d2iX509 (certificateField E chance c) = some c.myCert :=
      fun chance => hder.parse _ (hfield chance ▸ List.prefix_rfl)
    exact
      { filled := fun certarray m_cert hlen => ⟨_, fillHeader_of_le hlen m_cert h.ge,
          fun chance => by rw [hfield chance, List.take_of_length_le h.le]⟩
        whole := fun chance => hfield chance ▸ List.prefix_rfl
        request := fun _ chance rest =>
          ⟨_, AuthenticationRequestHeader.reads _ rest, hparse chance⟩
        reply := fun _ chance _ _ _ _ rest =>
          ⟨_, AuthenticationReplyHeader.reads _ rest, hparse chance⟩ }

variable {x509Sign : CertificateAuthority.X509Sign} {caKeyPairs : Rsa} {reqs : List X509Req}
  {req : X509Req}

theorem length_issued (hcert : c.myCert = CertificateAuthority.issued x509Sign caKeyPairs reqs req)
    (hder : Der E.ssl base c.myCert) :
    (E.ssl.i2dX509 c.myCert).length = base + integerLength ((reqs.length + 3) % 256) := by
  rw [hder.length, hcert, CertificateAuthority.serialNumber_issued, Int.toNat_natCast]

/-- The certificate of a node survives if and only if its encoding fills the field. Where it
does with a serial number of one byte, it survives if and only if the number is below 128. -/
theorem certificate_survives_iff
    (hcert : c.myCert = CertificateAuthority.issued x509Sign caKeyPairs reqs req)
    (hder : Der E.ssl base c.myCert) :
    (Survives E c ↔ base + integerLength ((reqs.length + 3) % 256) = CERT_SIZE) ∧
      (base + 1 = CERT_SIZE → (Survives E c ↔ (reqs.length + 3) % 256 < 128)) := by
  have hiff : Survives E c ↔ base + integerLength ((reqs.length + 3) % 256) = CERT_SIZE := by
    rw [survives_iff_length hder, length_issued hcert hder]
  refine ⟨hiff, fun hbase => ?_⟩
  rw [hiff]
  rcases lt_or_ge ((reqs.length + 3) % 256) 128 with hlt | hge
  · rw [integerLength_of_lt hlt]
    exact iff_of_true hbase hlt
  · rw [integerLength_of_ge hge (Nat.mod_lt _ (by decide))]
    exact iff_of_false (by omega) hge.not_gt

end

/-! ### Two nodes -/

/-- An encoding with 726 bytes besides the serial number: the length of the serial number,
the number, the key and the signature. -/
def encode (cert : X509) : Bytes :=
  let n := integerLength cert.serialNumber.toNat
  UInt8.ofNat n :: (leBytes n cert.serialNumber.toNat ++
    UInt8.ofNat (cert.pubkey.getD 0) :: (Sample.fill 724 cert.signature).toList)

def decode (bs : Bytes) : Option X509 :=
  let n := (bs.getD 0 0).toNat
  if 726 + n ≤ CERT_SIZE then
    some ⟨leValue ((bs.drop 1).take n), some (bs.getD (n + 1) 0).toNat, [bs.getD (n + 2) 0]⟩
  else none

/-- The sample without security, with this encoding. -/
def env : Env ℚ :=
  { Sample.env with
    ssl := { Sample.ssl with d2iX509 := fun b => decode b.toList, i2dX509 := encode } }

theorem d2iX509_env {b : Block CERT_SIZE} {bs : Bytes} (h : b.toList = bs) :
    env.ssl.d2iX509 b = decode bs := h ▸ rfl

/-- The credentials of the node with the key 9 that is authenticated after `k` others. -/
def credentials (k : ℕ) : Credentials :=
  { Sample.credentials 8 with
    myCert := CertificateAuthority.issued (fun _ _ _ => [42]) ⟨1, 0⟩
      (List.replicate k ⟨some 7⟩) ⟨some 9⟩ }

theorem der_first : Der env.ssl 726 (credentials 0).myCert where
  length := by decide +kernel
  parse b hb := by
    have hlen : (encode (credentials 0).myCert).length = b.toList.length := by
      rw [List.Vector.toList_length]
      decide +kernel
    have hbytes : b.toList = encode (credentials 0).myCert := (hb.eq_of_length hlen).symm
    exact (d2iX509_env hbytes).trans (by decide +kernel)

theorem certificate_survives_iff_first : Survives env (credentials 0) :=
  (certificate_survives_iff rfl der_first).1.mpr (by decide)

/-- The certificate of the 126th node has the serial number 128. It is cut off, and its
receivers find no certificate in the field. -/
theorem certificate_lost : (credentials 125).myCert.serialNumber = 128 ∧
    Der env.ssl 726 (credentials 125).myCert ∧ ¬ Survives env (credentials 125) ∧
    ∀ chance, env.ssl.d2iX509 (certificateField env chance (credentials 125)) = none := by
  have hlen : (encode (credentials 125).myCert).length = CERT_SIZE + 1 := by decide +kernel
  have hder : Der env.ssl 726 (credentials 125).myCert :=
    ⟨by decide +kernel, fun b hb => by
      have hle : (encode (credentials 125).myCert).length ≤ CERT_SIZE :=
        hb.length_le.trans_eq b.toList_length
      omega⟩
  refine ⟨by decide +kernel, hder, fun h => ?_, fun chance => ?_⟩
  · have hfit : (encode (credentials 125).myCert).length = CERT_SIZE :=
      (survives_iff_length hder).mp h
    omega
  · have hfield : (certificateField env chance (credentials 125)).toList =
        (encode (credentials 125).myCert).take CERT_SIZE :=
      Block.toList_copyData chance.byte (hlen ▸ Nat.le_succ CERT_SIZE)
    exact (d2iX509_env hfield).trans (by decide +kernel)

end SAeroRP.Certificates
