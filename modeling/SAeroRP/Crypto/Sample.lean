import SAeroRP.Crypto.OpenSsl

/-! A library that keeps the laws the results ask for and can be evaluated. It is
no protection: the cipher adds 1 to every byte and the tag is the start of the
key; a certificate is its serial number, its key and the byte 42 where the
authority signed it; a signature is the signer's key and the start of the data. -/

namespace SAeroRP.Sample

open Library

/-- The bytes, cut or filled with zeros to fit. -/
def fill (n : ℕ) (bs : Bytes) : Block n := Block.copyData (fun _ => 0) n bs

@[simp] theorem getD_fill {n i : ℕ} (h : i < n) (bs : Bytes) :
    (fill n bs).toList.getD i 0 = bs.getD i 0 := by
  simp [fill, Block.copyData, List.Vector.toList, h]

theorem take_fill {n : ℕ} {bs : Bytes} (h : bs.length ≤ n) :
    (fill n bs).toList.take bs.length = bs := by
  apply List.ext_getElem
  · simp [fill, h]
  · intro i hi _
    have hi : i < bs.length := by simp [fill] at hi; omega
    simp [fill, Block.copyData, List.Vector.toList, hi]

def gcm : EvpGcm where
  encrypt plaintext _ key _ := (plaintext.map (· + 1), key.slice 0 TAG_SIZE (by decide))
  decryptFinal ciphertext _ tag key _ :=
    (ciphertext.map (· - 1), if tag = key.slice 0 TAG_SIZE (by decide) then 1 else 0)

theorem gcm_inverts : gcm.Inverts := by
  rintro n ⟨bs, hbs⟩ aad key iv
  have hmap : (bs.map (· + 1)).map (· - 1) = bs := by simp [Function.comp_def]
  simp only [gcm, if_true]
  exact Prod.ext (Subtype.ext hmap) rfl

/-- A tag of the associated data and the start of the key. -/
def bindingTag (aad : Block AAD_LENGTH) (key : Block SHARED_KEY_SIZE) : Block TAG_SIZE :=
  fill TAG_SIZE (aad.toList ++ key.toList)

/-- The same cipher with a tag that depends on the associated data. -/
def bindingGcm : EvpGcm where
  encrypt plaintext aad key _ := (plaintext.map (· + 1), bindingTag aad key)
  decryptFinal ciphertext aad tag key _ :=
    (ciphertext.map (· - 1), if tag = bindingTag aad key then 1 else 0)

theorem bindingGcm_inverts : bindingGcm.Inverts := by
  rintro n ⟨bs, hbs⟩ aad key iv
  have hmap : (bs.map (· + 1)).map (· - 1) = bs := by simp [Function.comp_def]
  simp only [bindingGcm, if_true]
  exact Prod.ext (Subtype.ext hmap) rfl

def sign (key : PKey) (data : Bytes) : Block RSA_KEY_SIZE :=
  fill RSA_KEY_SIZE (UInt8.ofNat key :: data)

def ssl : OpenSsl where
  d2iX509 b := some ⟨(b.toList.getD 0 0).toNat, some (b.toList.getD 1 0).toNat, [b.toList.getD 2 0]⟩
  i2dX509 c := [UInt8.ofNat c.serialNumber.toNat, UInt8.ofNat (c.pubkey.getD 0)] ++ c.signature
  x509VerifyCert ca cert := if cert.map X509.signature = some ca.signature then 1 else 0
  digestVerifyFinal key data s := if key.map (sign · data) = some s then 1 else 0
  digestSign pair data := sign pair.publicKey data
  rsaPublicEncrypt key _ m := fill RSA_KEY_SIZE (UInt8.ofNat key :: m.toList)
  rsaPrivateDecrypt pair c :=
    if c.toList.head? = some (UInt8.ofNat pair.publicKey) then
      some ((c.toList.drop 1).take SHARED_KEY_SIZE)
    else none

theorem head?_fill {n : ℕ} (h : 0 < n) (b : UInt8) (bs : Bytes) :
    (fill n (b :: bs)).toList.head? = some b := by
  rw [List.head?_eq_getElem?, List.getElem?_eq_getElem (by simpa using h)]
  simp [fill, Block.copyData, List.Vector.toList]

/-- The field of an encrypted key, after the byte of the public key. -/
theorem take_drop_fill (b : UInt8) (m : Block SHARED_KEY_SIZE) :
    ((fill RSA_KEY_SIZE (b :: m.toList)).toList.drop 1).take SHARED_KEY_SIZE = m.toList := by
  have hm : m.toList.length = SHARED_KEY_SIZE := m.toList_length
  have hlen : (b :: m.toList).length = 1 + SHARED_KEY_SIZE := by
    rw [List.length_cons, hm, Nat.add_comm]
  have hfit : (b :: m.toList).length ≤ RSA_KEY_SIZE := hlen.le.trans (by decide)
  rw [List.take_drop, ← hlen, take_fill hfit]
  rfl

theorem rsaPrivateDecrypt_rsaPublicEncrypt (pair : Rsa) (padding : ℕ) (m : Block SHARED_KEY_SIZE) :
    ssl.rsaPrivateDecrypt pair (ssl.rsaPublicEncrypt pair.publicKey padding m) =
      some m.toList := by
  simp only [ssl]
  rw [if_pos (head?_fill (by decide) _ _), take_drop_fill]

theorem ssl_decryptsRight : ssl.DecryptsRight := by
  intro pair key padding m m' h
  simp only [ssl] at h
  split_ifs at h
  cases h
  exact take_drop_fill _ m

end SAeroRP.Sample
