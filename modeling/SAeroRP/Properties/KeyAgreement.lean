import SAeroRP.System.Network
import SAeroRP.System.Sample

/-! Agreement on the shared key. A node checks a reply against the certificate that
came with it, which may be anybody's, and takes over what it decrypts without
looking at the result. As long as the replies it accepts come with the ground
station's key and a key field it can decrypt, all authenticated nodes share the
ground station's key. -/

namespace SAeroRP.KeyAgreement

open Library Node

variable {β : Type}

/-! ### Replies -/

/-- A reply with the header would be accepted for the ground station's: it carries
that station's key, and a key field the node can decrypt. -/
def Genuine (E : Env β) (gsKey : Option PKey) (n : Node) (hdr : AuthenticationReplyHeader) : Prop :=
  (E.ssl.d2iX509 hdr.certificate).bind X509.pubkey = gsKey ∧
    ∀ c, n.credentials = some c → E.ssl.rsaPrivateDecrypt c.rsaKeyPair hdr.sharedKey ≠ none

/-- Of the signed data of a reply, the part after 17 bytes is an encryption of the
key. -/
def Encrypts (E : Env β) (data : Bytes) (key : Block SHARED_KEY_SIZE) : Prop :=
  ∃ pkey padding, data.drop 17 = (E.ssl.rsaPublicEncrypt pkey padding key).toList

section
variable {E : Env β} {now : Time} {n m : Node} {es : List Effect}

/-- A full key that is decrypted replaces the old one. -/
theorem decryptSharedKey_of_encrypts (hdec : E.ssl.DecryptsRight) {c : Credentials}
    {pkey : PKey} {padding : ℕ} {key : Block SHARED_KEY_SIZE}
    (hsome : E.ssl.rsaPrivateDecrypt c.rsaKeyPair (E.ssl.rsaPublicEncrypt pkey padding key) ≠ none)
    (h : n.decryptSharedKey E c (E.ssl.rsaPublicEncrypt pkey padding key) = .ok m) :
    m.sharedKey = key := by
  obtain ⟨k, hk⟩ := Option.ne_none_iff_exists'.mp hsome
  have hkey := hdec _ _ _ _ _ hk
  subst hkey
  rw [decryptSharedKey_of_decrypts n hk] at h
  cases h
  rfl

/-- A reply that is accepted was signed with the key of the certificate it carries. -/
theorem verified_of_replyAccepted {hdr : AuthenticationReplyHeader}
    (h : n.replyAccepted E now hdr = .ok true) :
    E.ssl.digestVerifyFinal ((E.ssl.d2iX509 hdr.certificate).bind X509.pubkey)
      (setGSData hdr.timeStamp hdr.randomNo hdr.oldRandomNo hdr.identification
        hdr.sharedKey).toList hdr.sign = 1 := by
  obtain ⟨valid, hvalid, h⟩ := bind_eq_ok.mp h
  split at h
  · cases h
  · have hboth := Except.ok.inj h
    rw [Bool.and_eq_true] at hboth
    rw [hboth.1] at hvalid
    exact of_decide_eq_true (checkPacketValidity_eq_true E |>.mp hvalid).2.2.1

/-- A reply leaves a node unauthenticated, or with the key its data encrypts. -/
theorem sharedKey_of_processReply (hdec : E.ssl.DecryptsRight) {hdr : AuthenticationReplyHeader}
    {gsKey : Option PKey} {key : Block SHARED_KEY_SIZE}
    (hgenuine : n.replyAccepted E now hdr = .ok true → Genuine E gsKey n hdr)
    (hsigned : E.ssl.digestVerifyFinal gsKey (setGSData hdr.timeStamp hdr.randomNo hdr.oldRandomNo
      hdr.identification hdr.sharedKey).toList hdr.sign = 1 →
        Encrypts E (setGSData hdr.timeStamp hdr.randomNo hdr.oldRandomNo hdr.identification
          hdr.sharedKey).toList key)
    (h : n.processReply E now hdr = .ok (m, es)) :
    m.authenticationStatus = .auth ∧ m.sharedKey = key ∨
      m.authenticationStatus = .unauth ∧ m.sharedKey = n.sharedKey := by
  obtain ⟨-, ⟨c, k, haccepted, hc, hk, rfl⟩ | ⟨-, rfl⟩⟩ := processReply_ok h
  · obtain ⟨hcert, hsome⟩ := hgenuine haccepted
    have hverified := verified_of_replyAccepted haccepted
    rw [hcert] at hverified
    obtain ⟨pkey, padding, hdata⟩ := hsigned hverified
    rw [drop_setGSData] at hdata
    have hfield : hdr.sharedKey = E.ssl.rsaPublicEncrypt pkey padding key := Subtype.ext hdata
    have hsome := hsome c hc
    rw [hfield] at hk hsome
    have hkey := decryptSharedKey_of_encrypts hdec hsome hk
    exact .inl ⟨rfl, hkey⟩
  · exact .inr ⟨rfl, rfl⟩

end

section
variable [Preorder β] [DecidableLT β] [DecidableEq β] [Zero β] {ι : Type} {E : Env β}

/-! ### Runs -/

/-- Every authenticated airborne node has the ground station's key. -/
def Agreement (s : Net ι) : Prop :=
  ∀ i, (s.nodes (.an i)).authenticationStatus = .auth →
    (s.nodes (.an i)).sharedKey = (s.nodes .gs).sharedKey

/-- A reply that passes all checks of the node it arrives at is genuine. -/
def GenuineReplies (E : Env β) (x : Transition (Net ι) (NetEvent ι) Output) : Prop :=
  ∀ p chance d hdr, x.event = .act p (.recv chance d) → d.reply = some hdr →
    (x.pre.nodes p).replyAccepted E x.pre.now hdr = .ok true →
      Genuine E (x.pre.publicKey .gs) (x.pre.nodes p) hdr

/-- The invariant of a run: the ground station keeps its key, every authenticated
airborne node has it, and the ground station signs it for replies only. -/
structure Agreed (E : Env β) (gsKey : PKey) (key : Block SHARED_KEY_SIZE) (s : Net ι) : Prop where
  publicKey : s.publicKey .gs = some gsKey
  distinct : ∀ i, s.publicKey (.an i) ≠ some gsKey
  sharedKey : (s.nodes .gs).sharedKey = key
  agreement : ∀ i, (s.nodes (.an i)).authenticationStatus = .auth →
    (s.nodes (.an i)).sharedKey = key
  signed : ∀ data, (gsKey, data) ∈ s.signed → data.length = GS_DATA_SIZE → Encrypts E data key

variable {gsKey : PKey} {key : Block SHARED_KEY_SIZE}

theorem length_setANData (timer : UInt64) (randno : UInt32) (identifier : UInt8) :
    (setANData timer randno identifier).toList.length ≠ GS_DATA_SIZE := by
  rw [List.Vector.toList_length]
  decide

/-- What a step of a node signs: requests, and replies that encrypt its own key. -/
theorem signed_of_does {s t : Sys} {e : Event} {o : Output} (h : Sys.Does E s e t o)
    {pkey : PKey} {data : Bytes} (hdata : (pkey, data) ∈ Effect.signed o.effects)
    (hlen : data.length = GS_DATA_SIZE) :
    (s.node.credentials.map fun c => c.rsaKeyPair.publicKey) = some pkey ∧
      Encrypts E data s.node.sharedKey := by
  cases h with
  | recv h =>
    rcases recvAERORP_effects h with rfl | ⟨_, _, _, rfl⟩ | ⟨_, _, _, rfl⟩ |
      ⟨hdr, identification, pk, -, -, -, hsend⟩
    · cases hdata
    · cases hdata
    · cases hdata
    · obtain ⟨c, message, hc, rfl⟩ := sendAuthenticationReplyPacket_ok hsend
      simp only [Effect.signed_signData, signed_sendOverAuth, List.mem_singleton,
        Prod.mk.injEq] at hdata
      obtain ⟨rfl, rfl⟩ := hdata
      exact ⟨by rw [hc]; rfl, _, _, drop_setGSData ..⟩
  | routeInput h =>
    rw [signed_routeInput h] at hdata
    cases hdata
  | checkQueue =>
    rw [signed_checkQueue] at hdata
    cases hdata
  | authenticationTimer h =>
    obtain ⟨c, message, -, rfl⟩ := sendAuthenticationRequestPacket_ok h
    simp only [Effect.signed_signData, signed_sendOverAuth, List.mem_singleton,
      Prod.mk.injEq] at hdata
    obtain ⟨-, rfl⟩ := hdata
    exact absurd hlen (length_setANData _ _ _)
  | _ => cases hdata

/-- The keys of a node after a step: unchanged, or those a reply left. -/
theorem keys_of_does (hdec : E.ssl.DecryptsRight) {s : Net ι} (hs : Agreed E gsKey key s)
    {p : Party ι} {e : Event} {n : Node} {o : Output}
    (h : Sys.Does E ⟨s.now, s.nodes p⟩ e ⟨s.now, n⟩ o)
    (hunforged : ∀ chance d, e = .recv chance d → Net.Unforged E s d)
    (hgenuine : ∀ chance d hdr, e = .recv chance d → d.reply = some hdr →
      (s.nodes p).replyAccepted E s.now hdr = .ok true →
        Genuine E (s.publicKey .gs) (s.nodes p) hdr) :
    n.authenticationStatus = .auth ∧ n.sharedKey = key ∨
      n.authenticationStatus = .unauth ∧ n.sharedKey = (s.nodes p).sharedKey ∨
      (s.nodes p).SameKeys n := by
  by_cases he : ∀ chance d, e ≠ .recv chance d
  · exact .inr (.inr (Sys.Does.sameKeys h he))
  push Not at he
  obtain ⟨chance, d, rfl⟩ := he
  generalize hpost : (⟨s.now, n⟩ : Sys) = t at h
  cases h with
  | recv h =>
    cases hpost
    cases hreply : d.reply with
    | none => exact .inr (.inr (recvAERORP_sameKeys h hreply))
    | some hdr =>
      rw [recvAERORP_of_reply _ _ _ _ _ hreply] at h
      have hsigned : E.ssl.digestVerifyFinal (s.publicKey .gs) (setGSData hdr.timeStamp hdr.randomNo
          hdr.oldRandomNo hdr.identification hdr.sharedKey).toList hdr.sign = 1 →
          Encrypts E (setGSData hdr.timeStamp hdr.randomNo hdr.oldRandomNo hdr.identification
            hdr.sharedKey).toList key := by
        rw [hs.publicKey]
        intro hverified
        have hlog := hunforged chance d rfl _ _ (Datagram.signedData_of_reply hreply) .gs gsKey
          hs.publicKey hverified
        exact hs.signed _ hlog (List.Vector.toList_length _)
      have hgenuine := hgenuine chance d hdr rfl hreply
      exact (sharedKey_of_processReply hdec hgenuine hsigned h).imp id .inl

variable [DecidableEq ι]

theorem agreed_step (hdec : E.ssl.DecryptsRight) {x : Transition (Net ι) (NetEvent ι) Output}
    (hx : Net.Step E x) (hg : GenuineReplies E x) (hs : Agreed E gsKey key x.pre) :
    Agreed E gsKey key x.post := by
  obtain ⟨s, e, o, t⟩ := x
  have hdoes : Net.Does E s e t o := hx
  have hpublic : ∀ p, t.publicKey p = s.publicKey p := hdoes.publicKey
  have hgs : t.publicKey .gs = some gsKey := (hpublic _).trans hs.publicKey
  have han : ∀ i, t.publicKey (.an i) ≠ some gsKey := fun i h =>
    hs.distinct i ((hpublic _).symm.trans h)
  cases hdoes with
  | advance => exact ⟨hgs, han, hs.sharedKey, hs.agreement, hs.signed⟩
  | @act p e n o h hunforged =>
    have hkeys := keys_of_does hdec hs h hunforged fun chance d hdr he =>
      hg p chance d hdr (congrArg _ he)
    refine ⟨hgs, han, ?_, ?_, ?_⟩
    · by_cases hp : Party.gs = p
      · subst hp
        simp only [Function.update_self]
        rcases hkeys with ⟨-, hk⟩ | ⟨-, hk⟩ | hk
        · exact hk
        · exact hk.trans hs.sharedKey
        · exact hk.sharedKey.trans hs.sharedKey
      · simp only [Function.update_of_ne hp]
        exact hs.sharedKey
    · intro i hauth
      by_cases hp : Party.an i = p
      · subst hp
        simp only [Function.update_self] at hauth ⊢
        rcases hkeys with ⟨-, hk⟩ | ⟨hun, -⟩ | hk
        · exact hk
        · rw [hun] at hauth
          cases hauth
        · rw [hk.sharedKey]
          exact hs.agreement i (hk.authenticationStatus.symm.trans hauth)
      · simp only [Function.update_of_ne hp] at hauth ⊢
        exact hs.agreement i hauth
    · intro data hdata hlen
      rcases List.mem_append.mp hdata with hold | hnew
      · exact hs.signed data hold hlen
      · obtain ⟨hkey, hencrypts⟩ := signed_of_does h hnew hlen
        -- only the ground station signs with its key
        cases p with
        | gs => exact hs.sharedKey ▸ hencrypts
        | an i => exact absurd hkey (hs.distinct i)

omit [Preorder β] [DecidableLT β] [DecidableEq β] [Zero β] [DecidableEq ι] in
theorem agreed_of_started {s : Net ι} (hs : s.Started)
    (hkeys : ∀ i, s.publicKey (.an i) ≠ s.publicKey .gs) :
    ∃ gsKey, Agreed E gsKey (s.nodes .gs).sharedKey s := by
  obtain ⟨n, created, generated, hgs, hsecure, hground⟩ := hs.gs
  have hcred : (s.nodes .gs).credentials = some created := by
    rw [hgs]
    simp [Node.start, authenticationIntialize, setSharedKey, hsecure, hground]
  have hpublic : s.publicKey .gs = some created.rsaKeyPair.publicKey := by
    rw [Net.publicKey, hcred]
    rfl
  refine ⟨_, hpublic, fun i => hpublic ▸ hkeys i, rfl, fun i hauth => ?_, fun data hdata => ?_⟩
  · obtain ⟨n, created, generated, han, hsecure, hground⟩ := hs.an i
    rw [han] at hauth
    simp [Node.start, authenticationIntialize, hsecure, hground] at hauth
  · rw [hs.signed] at hdata
    cases hdata

/-- From the start of all nodes on, if all replies that nodes accept are genuine,
then the authenticated nodes agree with the ground station at every moment. -/
theorem key_agreement_run (E : Env β) (hdec : E.ssl.DecryptsRight) (s u : Net ι)
    (tr : List (Transition (Net ι) (NetEvent ι) Output)) (hrun : Run (Net.Step E) s tr u)
    (hs : s.Started) (hkeys : ∀ i, s.publicKey (.an i) ≠ s.publicKey .gs)
    (hgenuine : ∀ x ∈ tr, GenuineReplies E x) :
    Agreement u ∧ ∀ x ∈ tr, Agreement x.pre := by
  obtain ⟨gsKey, hstart⟩ := agreed_of_started (E := E) hs hkeys
  obtain ⟨hend, hall⟩ := hrun.invariant_of (I := Agreed E gsKey (s.nodes .gs).sharedKey)
    (C := GenuineReplies E) (fun _ hx hg ha => agreed_step hdec hx hg ha) hgenuine hstart
  have hagree : ∀ t : Net ι, Agreed E gsKey (s.nodes .gs).sharedKey t → Agreement t :=
    fun t ht i hauth => (ht.agreement i hauth).trans ht.sharedKey.symm
  exact ⟨hagree u hend, fun x hx => hagree _ (hall x hx)⟩

end

/-! ### A handshake -/

/-- The ground station of the sample and its node 1. -/
def two : Net Unit where
  now := 0
  nodes
    | .gs => Sample.secureNode 0
    | .an () => Sample.secureNode 1

theorem two_started : two.Started where
  gs := ⟨{ Sample.node 0 with securityState := true }, Sample.credentials 0, Sample.fill _ [1], rfl,
    rfl, by decide⟩
  an _ := ⟨{ Sample.node 1 with securityState := true }, Sample.credentials 1, Sample.fill _ [1],
    rfl, rfl, by decide⟩
  signed := rfl

theorem publicKey_two (p : Party Unit) :
    two.publicKey p = some (match p with | .gs => 1 | .an () => 2) := by
  cases p <;> simp [Net.publicKey, two, Sample.credentials]

/-- The request node 1 makes, and the reply of the ground station. -/
def request : AuthenticationRequestHeader :=
  authenticationRequest Sample.env 0 Sample.chance (Sample.credentials 1)

def reply : AuthenticationReplyHeader :=
  authenticationReply Sample.env 0 Sample.chance 1 101 2 (Sample.credentials 0)
    (Sample.secureNode 0)

def requestDatagram : Datagram :=
  ⟨.ofOctets 192 168 1 2,
    ⟨TypeHeader.serialize ⟨.authenticationRequest, true⟩ ++ request.serialize, 1, false⟩⟩

def replyDatagram : Datagram :=
  ⟨.ofOctets 192 168 1 1,
    ⟨TypeHeader.serialize ⟨.authenticationReply, true⟩ ++ reply.serialize, 2, false⟩⟩

theorem publicKey_of_two {s : Net Unit} (hs : ∀ p, s.publicKey p = two.publicKey p) :
    s.publicKey .gs = some 1 := by
  rw [hs, publicKey_two]

/-- It is enough to look at the two keys of the nodes. -/
theorem unforged_of {s : Net Unit} (hs : ∀ p, s.publicKey p = two.publicKey p) {d : Datagram}
    {data : Bytes} {sign : Block RSA_KEY_SIZE} (hd : d.signedData = some (data, sign))
    (h : ∀ key ∈ [1, 2], Sample.ssl.digestVerifyFinal (some key) data sign = 1 →
      (key, data) ∈ s.signed) : Net.Unforged Sample.env s d := by
  intro data' sign' hd' p key hkey hverified
  rw [hd] at hd'
  cases hd'
  refine h key ?_ hverified
  rw [hs, publicKey_two] at hkey
  rcases p with _ | ⟨⟨⟩⟩ <;> cases hkey <;> decide

/-- What the request and the reply sign. -/
def requestData : Bytes :=
  (setANData request.timeStamp request.randomNo request.identification).toList

def replyData : Bytes :=
  (setGSData reply.timeStamp reply.randomNo reply.oldRandomNo reply.identification
    reply.sharedKey).toList

theorem request_sent : ∃ es, (Sample.secureNode 1).sendAuthenticationRequestPacket Sample.env 0
    Sample.chance = .ok es ∧ decide (Effect.signed es = [(2, requestData)]) = true :=
  exists_of_any (by decide +kernel)

theorem request_answered : ∃ q, (Sample.secureNode 0).recvAERORP Sample.env 0 Sample.chance
    requestDatagram = .ok q ∧ decide (Effect.signed q.2 = [(1, replyData)]) = true :=
  exists_of_any (by decide +kernel)

theorem reply_accepted : ∃ q, (Sample.secureNode 1).recvAERORP Sample.env 0 Sample.chance
    replyDatagram = .ok q ∧ decide (q.1.authenticationStatus = .auth) = true :=
  exists_of_any (by decide +kernel)

theorem requestDatagram_signedData :
    requestDatagram.signedData = some (requestData, request.sign) := by
  have hrequest : requestDatagram.request = some request := Datagram.request_of_bytes rfl
  simp only [Datagram.signedData, hrequest, requestData]

theorem requestDatagram_reply : requestDatagram.reply = none := by
  have ht : requestDatagram.messageType = some .authenticationRequest :=
    Datagram.messageType_of_bytes rfl
  rw [Datagram.reply, if_neg]
  rw [ht]
  decide

theorem reply_genuine {n : Node} (hn : n.credentials = some (Sample.credentials 1)) :
    Genuine Sample.env (some 1) n reply := by
  refine ⟨by decide +kernel, fun c hc => ?_⟩
  rw [hn] at hc
  cases hc
  decide +kernel

/-- The request of node 1 is sent and answered, and the reply accepted. -/
theorem handshake : ∃ tr u, Run (Net.Step Sample.env) two tr u ∧
    (∀ x ∈ tr, GenuineReplies Sample.env x) ∧ (u.nodes (.an ())).authenticationStatus = .auth := by
  obtain ⟨es, hsent, hes⟩ := request_sent
  obtain ⟨q, hanswered, hq⟩ := request_answered
  obtain ⟨r, haccepted, hr⟩ := reply_accepted
  have hes := of_decide_eq_true hes
  have hq := of_decide_eq_true hq
  let s₁ : Net Unit :=
    { two with
      nodes := Function.update two.nodes (.an ()) (Sample.secureNode 1)
      signed := two.signed ++ Effect.signed es }
  let s₂ : Net Unit :=
    { s₁ with
      nodes := Function.update s₁.nodes .gs q.1
      signed := s₁.signed ++ Effect.signed q.2 }
  let s₃ : Net Unit :=
    { s₂ with
      nodes := Function.update s₂.nodes (.an ()) r.1
      signed := s₂.signed ++ Effect.signed r.2 }
  have hdoes₁ : Net.Does Sample.env two (.act (.an ()) (.authenticationTimer Sample.chance)) s₁
      { effects := es } := .act (.authenticationTimer hsent) nofun
  have hkeys₁ : ∀ p, s₁.publicKey p = two.publicKey p := hdoes₁.publicKey
  have hnode₁ : s₁.nodes .gs = Sample.secureNode 0 := by simp [s₁, two]
  have hdoes₂ : Net.Does Sample.env s₁ (.act .gs (.recv Sample.chance requestDatagram)) s₂
      { effects := q.2 } := by
    refine .act (.recv (hnode₁ ▸ hanswered)) fun chance d he => ?_
    cases he
    refine unforged_of hkeys₁ requestDatagram_signedData ?_
    simp only [s₁, hes]
    decide +kernel
  have hkeys₂ : ∀ p, s₂.publicKey p = two.publicKey p := fun p =>
    (hdoes₂.publicKey p).trans (hkeys₁ p)
  have hnode₂ : s₂.nodes (.an ()) = Sample.secureNode 1 := by simp [s₂, s₁]
  have hreply : replyDatagram.reply = some reply := Datagram.reply_of_bytes rfl
  have hdoes₃ : Net.Does Sample.env s₂ (.act (.an ()) (.recv Sample.chance replyDatagram)) s₃
      { effects := r.2 } := by
    refine .act (.recv (hnode₂ ▸ haccepted)) fun chance d he => ?_
    cases he
    refine unforged_of hkeys₂ (Datagram.signedData_of_reply hreply) ?_
    simp only [s₂, s₁, hes, hq]
    decide +kernel
  refine ⟨[⟨two, _, _, s₁⟩, ⟨s₁, _, _, s₂⟩, ⟨s₂, _, _, s₃⟩], s₃,
    .cons rfl hdoes₁ (.cons rfl hdoes₂ (.cons rfl hdoes₃ (.nil _))), ?_, ?_⟩
  · intro x hx p chance d hdr he hd _
    simp only [List.mem_cons, List.not_mem_nil, or_false] at hx
    rcases hx with rfl | rfl | rfl
    · cases he
    · cases he
      rw [requestDatagram_reply] at hd
      cases hd
    · cases he
      rw [hreply] at hd
      obtain rfl := Option.some.inj hd
      rw [publicKey_of_two hkeys₂]
      exact reply_genuine (by rw [hnode₂, Sample.credentials_secureNode])
  · simpa [s₃] using of_decide_eq_true hr

theorem key_agreement_run_sample : ∃ tr u, Run (Net.Step Sample.env) two tr u ∧
    (u.nodes (.an ())).authenticationStatus = .auth ∧ Agreement u ∧ ∀ x ∈ tr, Agreement x.pre := by
  obtain ⟨tr, u, hrun, hgenuine, hauth⟩ := handshake
  exact ⟨tr, u, hrun, hauth, key_agreement_run _ Sample.ssl_decryptsRight two u tr hrun two_started
    (fun i => by rw [publicKey_two, publicKey_two]; simp) hgenuine⟩

/-! ### A reply from elsewhere -/

/-- A reply made with the key 9, for which the authority has signed a certificate.
It carries another shared key, encrypted for node 1. -/
def rogueReply : AuthenticationReplyHeader :=
  let field := Sample.ssl.rsaPublicEncrypt 2 0 (Sample.fill _ [7])
  ⟨Sample.fill _ [9, 9, 42], 0, 5, 101, 1, field, Sample.sign 9 (setGSData 0 5 101 1 field).toList⟩

def rogueDatagram : Datagram := Sample.datagram .authenticationReply rogueReply.serialize

theorem rogue_accepted : ∃ q, (Sample.secureNode 1).recvAERORP Sample.env 0 Sample.chance
    rogueDatagram = .ok q ∧ decide (q.1.authenticationStatus = .auth ∧
      q.1.sharedKey ≠ (Sample.secureNode 0).sharedKey) = true :=
  exists_of_any (by decide +kernel)

/-- The reply arrives at node 1. -/
theorem rogue_step : ∃ x, Net.Step Sample.env x ∧ x.pre = two ∧ ¬ Agreement x.post := by
  obtain ⟨q, hq, hwrong⟩ := rogue_accepted
  obtain ⟨hauth, hkey⟩ := of_decide_eq_true hwrong
  have hreply : rogueDatagram.reply = some rogueReply := Datagram.reply_of_bytes rfl
  have hnode : two.nodes (.an ()) = Sample.secureNode 1 := rfl
  have hdoes : Net.Does Sample.env two (.act (.an ()) (.recv Sample.chance rogueDatagram))
      { two with
        nodes := Function.update two.nodes (.an ()) q.1
        signed := two.signed ++ Effect.signed q.2 } { effects := q.2 } := by
    refine .act (.recv (hnode ▸ hq)) fun chance d he => ?_
    cases he
    exact unforged_of (fun _ => rfl) (Datagram.signedData_of_reply hreply) (by decide +kernel)
  refine ⟨⟨two, _, _, _⟩, hdoes, rfl, fun hagree => hkey ?_⟩
  have := hagree () (by simpa using hauth)
  simpa [two] using this

/-- Node 1 becomes authenticated with a key that is not the ground station's. -/
theorem rogue_key_agreed :
    ¬ ∀ (E : Env ℚ), E.ssl.DecryptsRight → ∀ (s u : Net Unit)
      (tr : List (Transition (Net Unit) (NetEvent Unit) Output)), Run (Net.Step E) s tr u →
      s.Started → (∀ i, s.publicKey (.an i) ≠ s.publicKey .gs) → Agreement u := by
  intro h
  obtain ⟨x, hx, hpre, hwrong⟩ := rogue_step
  refine hwrong (h Sample.env Sample.ssl_decryptsRight two x.post [x] (hpre ▸ Run.single x hx)
    two_started fun i => ?_)
  rw [publicKey_two, publicKey_two]
  simp

end SAeroRP.KeyAgreement
