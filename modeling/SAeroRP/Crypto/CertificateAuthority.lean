import Mathlib.Data.Nat.Size
import SAeroRP.Crypto.OpenSsl

/-! The certificate authority of a simulation. It numbers the certificates it issues with a
counter of eight bits, which starts after the number of its own certificate. -/

namespace SAeroRP

/-- A certificate request: the key it asks a certificate for. -/
structure X509Req where
  pubkey : Option PKey
  deriving DecidableEq

structure CertificateAuthority where
  caKeyPairs : Rsa
  myCert : X509
  serial : UInt8

namespace CertificateAuthority

/-- What X509_sign makes of a serial number and a key. -/
abbrev X509Sign := Rsa → ℤ → Option PKey → Library.Bytes

variable (x509Sign : X509Sign)

/-- CreateMyCertificate: the authority signs its own certificate. -/
def createMyCertificate (caKeyPairs : Rsa) : X509 :=
  ⟨1, some caKeyPairs.publicKey, x509Sign caKeyPairs 1 (some caKeyPairs.publicKey)⟩

/-- The constructor. -/
def create (caKeyPairs : Rsa) : CertificateAuthority :=
  ⟨caKeyPairs, createMyCertificate x509Sign caKeyPairs, 2⟩

def createCertificate (req : X509Req) (ca : CertificateAuthority) : X509 × CertificateAuthority :=
  let serial := ca.serial + 1
  (⟨serial.toNat, req.pubkey, x509Sign ca.caKeyPairs serial.toNat req.pubkey⟩,
    { ca with serial := serial })

/-- GetCertificateAuthority. The first call makes the authority. -/
def getCertificateAuthority (caKeyPairs : Rsa) : Option CertificateAuthority → CertificateAuthority
  | none => create x509Sign caKeyPairs
  | some ca => ca

/-- The certificates that are issued for requests, one after the other. -/
def certificates (caKeyPairs : Rsa) : Option CertificateAuthority → List X509Req → List X509
  | _, [] => []
  | ca, req :: reqs =>
    let (cert, ca) := (getCertificateAuthority x509Sign caKeyPairs ca).createCertificate x509Sign req
    cert :: certificates caKeyPairs (some ca) reqs

/-- The authority after it has issued certificates. -/
def issue (ca : CertificateAuthority) (reqs : List X509Req) : CertificateAuthority :=
  reqs.foldl (fun ca req => (ca.createCertificate x509Sign req).2) ca

/-- The counter counts the certificates, modulo 256. -/
theorem serial_issue (ca : CertificateAuthority) (reqs : List X509Req) :
    (ca.issue x509Sign reqs).serial = ca.serial + UInt8.ofNat reqs.length := by
  induction reqs generalizing ca with
  | nil => simp [issue]
  | cons req reqs ih =>
    have hcount : UInt8.ofNat (req :: reqs).length = 1 + UInt8.ofNat reqs.length := by
      rw [List.length_cons, UInt8.ofNat_add, UInt8.add_comm]
      rfl
    rw [hcount, ← UInt8.add_assoc]
    exact ih _

/-- The certificate issued after those for `reqs`. -/
def issued (caKeyPairs : Rsa) (reqs : List X509Req) (req : X509Req) : X509 :=
  (((create x509Sign caKeyPairs).issue x509Sign reqs).createCertificate x509Sign req).1

theorem serialNumber_issued (caKeyPairs : Rsa) (reqs : List X509Req) (req : X509Req) :
    (issued x509Sign caKeyPairs reqs req).serialNumber = ((reqs.length + 3) % 256 : ℕ) := by
  have hserial : (((create x509Sign caKeyPairs).issue x509Sign reqs).serial + 1).toNat =
      (reqs.length + 3) % 256 := by
    rw [serial_issue, create, UInt8.toNat_add, UInt8.toNat_add, UInt8.toNat_ofNat']
    show ((2 + reqs.length % 256) % 256 + 1) % 256 = _
    omega
  exact congrArg Nat.cast hserial

end CertificateAuthority

/-- The number of content octets of a nonnegative INTEGER in DER: the first bit is the
sign. -/
def integerLength (s : ℕ) : ℕ := s.size / 8 + 1

theorem integerLength_of_lt {s : ℕ} (h : s < 128) : integerLength s = 1 := by
  have hsize : s.size ≤ 7 := Nat.size_le.mpr h
  rw [integerLength, Nat.div_eq_of_lt (by omega)]

theorem integerLength_of_ge {s : ℕ} (h : 128 ≤ s) (hlt : s < 256) : integerLength s = 2 := by
  have hsize : s.size ≤ 8 := Nat.size_le.mpr hlt
  have hpos : 7 < s.size := Nat.lt_size.mpr h
  rw [integerLength, show s.size = 8 by omega]

end SAeroRP
