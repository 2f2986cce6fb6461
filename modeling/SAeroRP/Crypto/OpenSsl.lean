import SAeroRP.Packet.Headers

/-! The cryptographic library as the protocol calls it. The functions of the
library are parameters; what a result needs of them it names as a hypothesis.
Keys of the protocol have RSA_KEY_SIZE bytes, so signatures and encrypted keys
fill arrays of that size. -/

namespace SAeroRP

/-- A public key. -/
abbrev PKey := ℕ

/-- An RSA structure that holds both halves of a key pair. -/
structure Rsa where
  publicKey : PKey
  privateKey : ℕ
  deriving DecidableEq

/-- A certificate: its serial number, the key it binds and its issuer's
signature. -/
structure X509 where
  serialNumber : ℤ
  pubkey : Option PKey
  signature : Library.Bytes
  deriving DecidableEq

structure OpenSsl where
  /-- Parses a certificate; `none` is the null pointer. -/
  d2iX509 : Block CERT_SIZE → Option X509
  i2dX509 : X509 → Library.Bytes
  /-- The result of X509_verify_cert for a store that holds the first certificate. -/
  x509VerifyCert : X509 → Option X509 → ℤ
  /-- The result of EVP_DigestVerifyFinal. -/
  digestVerifyFinal : Option PKey → Library.Bytes → Block RSA_KEY_SIZE → ℤ
  digestSign : Rsa → Library.Bytes → Block RSA_KEY_SIZE
  /-- Encryption draws random padding, here the second argument. -/
  rsaPublicEncrypt : PKey → ℕ → Block SHARED_KEY_SIZE → Block RSA_KEY_SIZE
  /-- The decrypted message, or `none` where the padding does not check. -/
  rsaPrivateDecrypt : Rsa → Block RSA_KEY_SIZE → Option Library.Bytes

/-- What a decryption makes of an encrypted key is that key, where its padding
checks. -/
def OpenSsl.DecryptsRight (ssl : OpenSsl) : Prop :=
  ∀ (pair : Rsa) (key : PKey) (padding : ℕ) (m : Block SHARED_KEY_SIZE) (m' : Library.Bytes),
    ssl.rsaPrivateDecrypt pair (ssl.rsaPublicEncrypt key padding m) = some m' → m' = m.toList

/-- AES-256 in Galois counter mode. Decryption returns the plaintext it wrote and
the result of EVP_DecryptFinal_ex. -/
structure EvpGcm where
  encrypt : {n : ℕ} → Block n → Block AAD_LENGTH → Block SHARED_KEY_SIZE → Block IV_LENGTH →
    Block n × Block TAG_SIZE
  decryptFinal : {n : ℕ} → Block n → Block AAD_LENGTH → Block TAG_SIZE → Block SHARED_KEY_SIZE →
    Block IV_LENGTH → Block n × ℤ

/-- Decryption under the same key, associated data and initialisation vector
inverts encryption and accepts its tag. -/
def EvpGcm.Inverts (gcm : EvpGcm) : Prop :=
  ∀ (n : ℕ) (plaintext : Block n) (aad : Block AAD_LENGTH) (key : Block SHARED_KEY_SIZE)
    (iv : Block IV_LENGTH),
    gcm.decryptFinal (gcm.encrypt plaintext aad key iv).1 aad (gcm.encrypt plaintext aad key iv).2
      key iv = (plaintext, 1)

namespace GCMConverter

variable {n : ℕ} (gcm : EvpGcm)

def encryption (plaintext : Block n) (aad : Block AAD_LENGTH) (key : Block SHARED_KEY_SIZE)
    (iv : Block IV_LENGTH) : Block n × Block TAG_SIZE := gcm.encrypt plaintext aad key iv

/-- The result and the plaintext, which is written whatever the result is. -/
def dencryption (ciphertext : Block n) (aad : Block AAD_LENGTH) (tag : Block TAG_SIZE)
    (key : Block SHARED_KEY_SIZE) (iv : Block IV_LENGTH) : ℤ × Block n :=
  let (plaintext, ret) := gcm.decryptFinal ciphertext aad tag key iv
  if ret > 0 then (ret, plaintext) else (-1, plaintext)

end GCMConverter

end SAeroRP
