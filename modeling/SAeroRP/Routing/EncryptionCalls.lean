import SAeroRP.Routing.Beacons
import SAeroRP.Routing.RouteOutput

/-! The calls of Encryption that RouteOutput makes, with their arguments. Each of the three
cases makes one call for a packet of its size, and the packet that results has the size of
none of them. What RouteOutput makes of a packet depends on the cipher through these calls
only. -/

namespace SAeroRP

open Library

/-- A call of GCMConverter::Encryption. -/
structure EncryptionCall where
  plaintext : Bytes
  aad : Block AAD_LENGTH
  key : Block SHARED_KEY_SIZE
  iv : Block IV_LENGTH
  deriving DecidableEq

/-- Two ciphers return the same for a list of calls. -/
def EvpGcm.AgreeOn (g g' : EvpGcm) (calls : List EncryptionCall) : Prop :=
  ∀ (m : ℕ) (plaintext : Block m) (aad : Block AAD_LENGTH) (key : Block SHARED_KEY_SIZE)
    (iv : Block IV_LENGTH), ⟨plaintext.toList, aad, key, iv⟩ ∈ calls →
      g.encrypt plaintext aad key iv = g'.encrypt plaintext aad key iv

theorem EvpGcm.AgreeOn.mono {g g' : EvpGcm} {l l' : List EncryptionCall} (h : g.AgreeOn g' l)
    (hsub : l' ⊆ l) : g.AgreeOn g' l' :=
  fun m plaintext aad key iv hc => h m plaintext aad key iv (hsub hc)

namespace Node

section
variable {β : Type} (E : Env β) (chance : Chance) (n : Node)

/-- The call for a packet that starts with a type header and a message of `size` bytes. -/
def messageCalls (size : ℕ) (h : TypeHeader) (aad : Block AAD_LENGTH) (iv : Block IV_LENGTH)
    (p : Packet) : List EncryptionCall :=
  if p.getSize = size + 1 then
    match p.removeHeader h.deserialize with
    | .ok (_, p) => [⟨(Block.copyData chance.byte size p.bytes).toList, aad, n.sharedKey, iv⟩]
    | .error _ => []
  else []

def helloCalls (aad : Block AAD_LENGTH) (iv : Block IV_LENGTH) (p : Packet) :
    List EncryptionCall :=
  n.messageCalls chance HELLO_PACKET_SIZE ⟨.hello, true⟩ aad iv p

def gsGeoLocationCalls (aad : Block AAD_LENGTH) (iv : Block IV_LENGTH) (p : Packet) :
    List EncryptionCall :=
  n.messageCalls chance GS_PACKET_SIZE ⟨.gsGeoLocation, true⟩ aad iv p

def dataCalls (aad : Block AAD_LENGTH) (iv : Block IV_LENGTH) (p : Packet) :
    List EncryptionCall :=
  if p.getSize = PACKET_DATA_LEN_BEFORE_ENCRYPTON then
    [⟨(Block.copyData chance.byte PACKET_DATA_LEN_BEFORE_ENCRYPTON p.bytes).toList, aad,
      n.sharedKey, iv⟩]
  else []

/-- The calls of `securePacket`; each case sees the packet the one before has left. -/
def secureCalls (p : Packet) (header : Ipv4Header) : List EncryptionCall :=
  let aad := gcmAad n.myAddress header.destination
  let iv := gcmIv p.uid
  n.helloCalls chance aad iv p ++
    match n.encryptHello E chance aad iv p with
    | .error _ => []
    | .ok p =>
      n.gsGeoLocationCalls chance aad iv p ++
        match n.encryptGSGeoLocation E chance aad iv p with
        | .error _ => []
        | .ok p => n.dataCalls chance aad iv p

/-- The calls of RouteOutput. -/
def encryptionCalls (p : Option Packet) (header : Ipv4Header) : List EncryptionCall :=
  if n.securityState then
    match p with
    | none => []
    | some p => n.secureCalls E chance p header
  else []

end

/-- The sizes of packets that RouteOutput encrypts. -/
def encryptedSizes : List ℕ :=
  [HELLO_PACKET_SIZE + 1, GS_PACKET_SIZE + 1, PACKET_DATA_LEN_BEFORE_ENCRYPTON]

section
variable {β : Type} {E : Env β} {chance : Chance} {n : Node} {aad : Block AAD_LENGTH}
  {iv : Block IV_LENGTH} {p q : Packet} {size : ℕ} {h : TypeHeader}

/-- A packet that is not empty has a type header. -/
theorem removeHeader_type (h : TypeHeader) {b : UInt8} {rest : Bytes} (hp : p.bytes = b :: rest) :
    ∃ h', p.removeHeader h.deserialize = .ok (h', { p with bytes := rest }) := by
  rw [Packet.removeHeader, hp, TypeHeader.deserialize_cons]
  exact ⟨_, rfl⟩

theorem messageCalls_of_size (hsize : p.getSize ≠ size + 1) :
    n.messageCalls chance size h aad iv p = [] := if_neg hsize

theorem key_of_mem_messageCalls {c : EncryptionCall}
    (hc : c ∈ n.messageCalls chance size h aad iv p) : c.key = n.sharedKey := by
  unfold messageCalls at hc
  split_ifs at hc
  · split at hc
    · rw [List.mem_singleton.mp hc]
    · cases hc
  · cases hc

theorem messageCalls_ne_nil (hsize : p.getSize = size + 1) :
    n.messageCalls chance size h aad iv p ≠ [] := by
  have hlen : p.bytes.length = size + 1 := hsize
  obtain ⟨b, rest, hp⟩ := List.exists_cons_of_length_eq_add_one hlen
  obtain ⟨h', hremove⟩ := removeHeader_type h hp
  rw [messageCalls, if_pos hsize, hremove]
  exact List.cons_ne_nil _ _

end

section
variable {β : Type} {E : Env β} {chance : Chance} {n : Node} {p : Packet} {header : Ipv4Header}

/-- Every call is made with the shared key. -/
theorem key_of_mem_encryptionCalls {p : Option Packet} {c : EncryptionCall}
    (hc : c ∈ n.encryptionCalls E chance p header) : c.key = n.sharedKey := by
  have hdata : ∀ {aad iv p}, c ∈ n.dataCalls chance aad iv p → c.key = n.sharedKey := by
    intro aad iv p hc
    unfold dataCalls at hc
    split_ifs at hc
    · rw [List.mem_singleton.mp hc]
    · cases hc
  unfold encryptionCalls at hc
  split_ifs at hc
  · cases p with
    | none => cases hc
    | some p =>
      rcases List.mem_append.mp hc with hhello | hc
      · exact key_of_mem_messageCalls hhello
      · split at hc
        · cases hc
        · rcases List.mem_append.mp hc with hgs | hc
          · exact key_of_mem_messageCalls hgs
          · split at hc
            · cases hc
            · exact hdata hc
  · cases hc

/-- Whether there is a call is a matter of the packet's size. -/
theorem secureCalls_ne_nil_iff :
    n.secureCalls E chance p header ≠ [] ↔ p.getSize ∈ encryptedSizes := by
  have hgs : GS_PACKET_SIZE + 1 ≠ HELLO_PACKET_SIZE + 1 := by decide
  have hdata : PACKET_DATA_LEN_BEFORE_ENCRYPTON ≠ HELLO_PACKET_SIZE + 1 ∧
      PACKET_DATA_LEN_BEFORE_ENCRYPTON ≠ GS_PACKET_SIZE + 1 := by decide
  unfold secureCalls
  by_cases h₁ : p.getSize = HELLO_PACKET_SIZE + 1
  · refine iff_of_true (fun hnil => ?_) (by simp [encryptedSizes, h₁])
    exact messageCalls_ne_nil h₁ (List.append_eq_nil_iff.mp hnil).1
  · simp only [encryptHello_of_size E chance n h₁, helloCalls, messageCalls_of_size h₁,
      List.nil_append]
    by_cases h₂ : p.getSize = GS_PACKET_SIZE + 1
    · refine iff_of_true (fun hnil => ?_) (by simp [encryptedSizes, h₂])
      exact messageCalls_ne_nil h₂ (List.append_eq_nil_iff.mp hnil).1
    · simp only [encryptGSGeoLocation_of_size E chance n h₂, gsGeoLocationCalls,
        messageCalls_of_size h₂, List.nil_append]
      by_cases h₃ : p.getSize = PACKET_DATA_LEN_BEFORE_ENCRYPTON
      · simp [dataCalls, h₃, encryptedSizes]
      · simp [dataCalls, h₁, h₂, h₃, encryptedSizes]

theorem encryptionCalls_ne_nil_iff {p : Option Packet} :
    n.encryptionCalls E chance p header ≠ [] ↔
      n.securityState = true ∧ ∃ q, p = some q ∧ q.getSize ∈ encryptedSizes := by
  unfold encryptionCalls
  cases hsecure : n.securityState with
  | false => simp
  | true =>
    cases p with
    | none => simp
    | some p => simp [secureCalls_ne_nil_iff]

/-! ### The timer of the HELLO messages -/

/-- HelloTimerExpire, up to the scheduling of the timer. -/
def helloTimerExpire (outOfRange : ℚ → UInt32) (n : Node) : List Effect :=
  (if n.authenticationStatus = .auth ∧ n.securityState = true then n.sendHello outOfRange else []) ++
    if n.securityState = false then n.sendHello outOfRange else []

/-- In secure mode the timer makes nothing that RouteOutput encrypts unless the node is
authenticated. -/
theorem auth_of_mem_helloTimerExpire {outOfRange : ℚ → UInt32} {e : Effect}
    (hsecure : n.securityState = true) (he : e ∈ n.helloTimerExpire outOfRange) :
    n.authenticationStatus = .auth := by
  unfold helloTimerExpire at he
  rw [hsecure, if_neg (by decide : ¬ true = false), List.append_nil] at he
  split_ifs at he with hauth
  · exact hauth.1
  · cases he

/-! ### The cipher is used in the calls only -/

variable {g g' : EvpGcm}

/-- A step that encrypts the message after a type header, whatever it makes of the result. -/
theorem messageCalls_congr {size : ℕ} {t : TypeHeader} {aad : Block AAD_LENGTH}
    {iv : Block IV_LENGTH} (f : Packet → Block size × Block TAG_SIZE → Except Fault Packet)
    (h : g.AgreeOn g' (n.messageCalls chance size t aad iv p)) :
    (if p.getSize = size + 1 then do
        let (_, q) ← p.removeHeader t.deserialize
        f q (GCMConverter.encryption g (Block.copyData chance.byte size q.bytes) aad n.sharedKey iv)
      else .ok p) =
      if p.getSize = size + 1 then do
        let (_, q) ← p.removeHeader t.deserialize
        f q (GCMConverter.encryption g' (Block.copyData chance.byte size q.bytes) aad n.sharedKey iv)
      else .ok p := by
  unfold messageCalls at h
  split_ifs with hsize
  · rw [if_pos hsize] at h
    cases hremove : p.removeHeader t.deserialize with
    | error e => rfl
    | ok r =>
      rw [hremove] at h
      have hcall := h _ _ aad n.sharedKey iv (List.mem_singleton.mpr rfl)
      simp only [ok_bind, GCMConverter.encryption, hcall]
  · rfl

theorem encryptHello_congr {aad : Block AAD_LENGTH} {iv : Block IV_LENGTH}
    (h : g.AgreeOn g' (n.helloCalls chance aad iv p)) :
    n.encryptHello { E with gcm := g } chance aad iv p =
      n.encryptHello { E with gcm := g' } chance aad iv p :=
  messageCalls_congr (fun q secured => q.removeHeader HelloHeader.deserialize >>= fun r =>
    let q := r.2.addHeader (SecureHelloHeader.serialize ⟨secured.1, secured.2⟩)
    return q.addHeader (TypeHeader.serialize ⟨.secureHello, true⟩)) h

theorem encryptGSGeoLocation_congr {aad : Block AAD_LENGTH} {iv : Block IV_LENGTH}
    (h : g.AgreeOn g' (n.gsGeoLocationCalls chance aad iv p)) :
    n.encryptGSGeoLocation { E with gcm := g } chance aad iv p =
      n.encryptGSGeoLocation { E with gcm := g' } chance aad iv p :=
  messageCalls_congr (fun q secured => q.removeHeader GSGeoLocationHeader.deserialize >>= fun r =>
    let q := r.2.addHeader (SecureGSGeoLocationHeader.serialize ⟨secured.1, secured.2⟩)
    return q.addHeader (TypeHeader.serialize ⟨.secureGSGeoLocation, true⟩)) h

theorem encryptData_congr {aad : Block AAD_LENGTH} {iv : Block IV_LENGTH}
    (h : g.AgreeOn g' (n.dataCalls chance aad iv p)) :
    n.encryptData { E with gcm := g } chance aad iv p =
      n.encryptData { E with gcm := g' } chance aad iv p := by
  unfold encryptData
  unfold dataCalls at h
  split_ifs with hsize
  · rw [if_pos hsize] at h
    have hcall := h _ _ aad n.sharedKey iv (List.mem_singleton.mpr rfl)
    simp only [GCMConverter.encryption, hcall]
  · rfl

/-- Ciphers that return the same for the calls lead to the same packet. -/
theorem securedPacket_congr {p : Option Packet}
    (h : g.AgreeOn g' (n.encryptionCalls { E with gcm := g } chance p header)) :
    n.securedPacket { E with gcm := g } chance p header =
      n.securedPacket { E with gcm := g' } chance p header := by
  unfold securedPacket
  unfold encryptionCalls at h
  split_ifs with hsecure
  · rw [if_pos hsecure] at h
    cases p with
    | none => rfl
    | some p =>
      simp only [securePacket]
      simp only [secureCalls] at h
      rw [← encryptHello_congr (h.mono (List.subset_append_left _ _))]
      cases hhello : n.encryptHello { E with gcm := g } chance
          (gcmAad n.myAddress header.destination) (gcmIv p.uid) p with
      | error f => rfl
      | ok q =>
        simp only [hhello] at h
        replace h := h.mono (List.subset_append_right _ _)
        simp only [ok_bind]
        rw [← encryptGSGeoLocation_congr (h.mono (List.subset_append_left _ _))]
        cases hgs : n.encryptGSGeoLocation { E with gcm := g } chance
            (gcmAad n.myAddress header.destination) (gcmIv p.uid) q with
        | error f => rfl
        | ok q' =>
          simp only [hgs] at h
          rw [ok_bind, ok_bind, encryptData_congr (h.mono (List.subset_append_right _ _))]
  · rfl

end

end Node

end SAeroRP
