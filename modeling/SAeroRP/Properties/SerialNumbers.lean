import Mathlib.Data.List.Nodup
import Mathlib.Data.List.Range
import SAeroRP.Crypto.CertificateAuthority

/-! The serial numbers of certificates. They are counted in eight bits from 3 on, so the number
of the authority's own certificate comes round with the 255th certificate. -/

namespace SAeroRP.CertificateAuthority

variable {x509Sign : X509Sign} {caKeyPairs : Rsa}

/-- No two certificates have the same number. -/
structure UniqueSerials (root : X509) (certs : List X509) : Prop where
  nodup : (certs.map X509.serialNumber).Nodup
  root : root.serialNumber ∉ certs.map X509.serialNumber

/-- The numbers count on from the counter. -/
theorem serialNumber_certificates (ca : Option CertificateAuthority) (reqs : List X509Req) :
    (certificates x509Sign caKeyPairs ca reqs).map X509.serialNumber =
      (List.range reqs.length).map fun k =>
        ((((getCertificateAuthority x509Sign caKeyPairs ca).serial.toNat + k + 1) % 256 : ℕ) : ℤ) := by
  induction reqs generalizing ca with
  | nil => rfl
  | cons req reqs ih =>
    generalize hca : getCertificateAuthority x509Sign caKeyPairs ca = authority
    have hserial : (authority.serial + 1).toNat = (authority.serial.toNat + 1) % 256 :=
      UInt8.toNat_add _ _
    have hrest := ih (some (authority.createCertificate x509Sign req).2)
    have hcount : ∀ k, ((authority.serial + 1).toNat + k + 1) % 256 =
        (authority.serial.toNat + (k + 1) + 1) % 256 := by
      intro k
      rw [hserial]
      omega
    rw [certificates, hca, List.length_cons, List.range_succ_eq_map, List.map_cons, List.map_cons,
      List.map_map, hrest]
    refine congrArg₂ List.cons (congrArg (Nat.cast : ℕ → ℤ) hserial) ?_
    exact List.map_congr_left fun k _ => congrArg (Nat.cast : ℕ → ℤ) (hcount k)

theorem serialNumber_create (reqs : List X509Req) :
    (certificates x509Sign caKeyPairs none reqs).map X509.serialNumber =
      (List.range reqs.length).map fun k => (((3 + k) % 256 : ℕ) : ℤ) := by
  rw [serialNumber_certificates]
  refine List.map_congr_left fun k _ => congrArg (Nat.cast : ℕ → ℤ) ?_
  show (2 + k + 1) % 256 = _
  omega

theorem UniqueSerials.length_le {reqs : List X509Req}
    (h : UniqueSerials (create x509Sign caKeyPairs).myCert (certificates x509Sign caKeyPairs none reqs)) :
    reqs.length ≤ 254 := by
  by_contra hlong
  refine h.root ?_
  rw [serialNumber_create]
  exact List.mem_map.mpr ⟨254, List.mem_range.mpr (by omega), rfl⟩

theorem uniqueSerials_of_length_le {reqs : List X509Req} (h : reqs.length ≤ 254) :
    UniqueSerials (create x509Sign caKeyPairs).myCert (certificates x509Sign caKeyPairs none reqs) := by
  refine ⟨?_, ?_⟩
  · rw [serialNumber_create]
    refine List.nodup_range.map_on fun j hj k hk heq => ?_
    have hj := List.mem_range.mp hj
    have hk := List.mem_range.mp hk
    have heq := Int.natCast_inj.mp heq
    omega
  · rw [serialNumber_create]
    intro hmem
    obtain ⟨k, hk, heq⟩ := List.mem_map.mp hmem
    have hk := List.mem_range.mp hk
    have heq : (3 + k) % 256 = 1 := Int.natCast_inj.mp heq
    omega

/-- The numbers are unique exactly as long as no more than 254 certificates are issued. -/
theorem uniqueSerials_iff (x509Sign : X509Sign) (caKeyPairs : Rsa) (reqs : List X509Req) :
    UniqueSerials (create x509Sign caKeyPairs).myCert (certificates x509Sign caKeyPairs none reqs) ↔
      reqs.length ≤ 254 :=
  ⟨UniqueSerials.length_le, uniqueSerials_of_length_le⟩

/-- The last of 255 certificates has the number of the authority's own. -/
theorem not_uniqueSerials :
    ((certificates (fun _ _ _ => []) ⟨1, 0⟩ none (List.replicate 255 ⟨none⟩)).getLast?.map
      X509.serialNumber) = some 1 ∧
    ¬ ∀ (x509Sign : X509Sign) (caKeyPairs : Rsa) (reqs : List X509Req),
      UniqueSerials (create x509Sign caKeyPairs).myCert
        (certificates x509Sign caKeyPairs none reqs) := by
  refine ⟨by decide +kernel, fun h => ?_⟩
  have hle := (h (fun _ _ _ => []) ⟨1, 0⟩ (List.replicate 255 ⟨none⟩)).length_le
  rw [List.length_replicate] at hle
  exact absurd hle (by decide)

end SAeroRP.CertificateAuthority
