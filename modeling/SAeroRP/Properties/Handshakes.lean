import SAeroRP.Properties.Freshness
import SAeroRP.System.Handshake
import SAeroRP.System.Sample

/-! Handshakes without an adversary. Every message in flight is a request of an
airborne node or the ground station's reply to one; the ground station answers
every request, and every reply authenticates the node it is for. -/

namespace SAeroRP.Handshakes

open Library Node

variable {β : Type} {E : Env β} {ι : Type} {R : Roster ι}

/-! ### Honest messages -/

/-- A request of an airborne node. -/
def IsRequest (E : Env β) (R : Roster ι) (i : ι) (m : Message) : Prop :=
  m.source = R.address (.an i) ∧ m.destination = R.address .gs ∧ ∃ time chance,
    m.bytes = TypeHeader.serialize ⟨.authenticationRequest, true⟩ ++
      (authenticationRequest E time chance (R.credentials (.an i))).serialize

/-- The ground station's reply to an airborne node, for the shared key. -/
def replyTo (E : Env β) (R : Roster ι) (gs : Node) (time : Time) (chance : Chance) (i : ι) :
    AuthenticationReplyHeader :=
  gs.authenticationReply E time chance (R.id (.an i)).toUInt8 (R.credentials (.an i)).myRandomNo
    (R.credentials (.an i)).rsaKeyPair.publicKey (R.credentials .gs)

def IsReply (E : Env β) (R : Roster ι) (key : Block SHARED_KEY_SIZE) (i : ι) (m : Message) : Prop :=
  m.source = R.address .gs ∧ m.destination = R.address (.an i) ∧ ∃ gs time chance,
    Node.sharedKey gs = key ∧
      m.bytes = TypeHeader.serialize ⟨.authenticationReply, true⟩ ++
        (replyTo E R gs time chance i).serialize

/-! ### Processing -/

section
variable (hE : R.Trusted E)
include hE

theorem parse_certificateField (p : Party ι) (chance : Chance) :
    E.ssl.d2iX509 (certificateField E chance (R.credentials p)) =
      some (R.credentials p).myCert := by
  have hlen := hE.length_cert p
  apply hE.parse_cert
  rw [certificateField, Block.toList_copyData _ hlen.ge, List.take_of_length_le hlen.le]

/-- A message of one party passes the four checks of the party it is for. -/
theorem checkPacketValidity_honest {p q : Party ι} {n : Node} (hn : R.Has q n) {now : Time}
    (hnow : now ≤ Time.seconds 5) {id : UInt8} (hid : id.toUInt32 = R.id q) (ts : UInt64)
    (data : Bytes) :
    n.checkPacketValidity E now (some (R.credentials p).myCert) (receivedTimeStamp ts) id data
      (E.ssl.digestSign (R.credentials p).rsaKeyPair data)
      (some (R.credentials p).rsaKeyPair.publicKey) = .ok true := by
  refine (checkPacketValidity_eq_true E).mpr ⟨?_, ?_, ?_, ?_⟩
  · rw [verifyCert, hn.credentials]
    simp [hE.verify_cert]
  · exact (Freshness.accepts_iff ts now).mpr hnow
  · exact decide_eq_true (hE.verify_sign p data)
  · exact decide_eq_true (hid.trans hn.nodeId.symm)

theorem requestValid_honest {n : Node} (hn : R.Has .gs n) {now : Time}
    (hnow : now ≤ Time.seconds 5) (time : Time) (chance : Chance) (i : ι) :
    n.requestValid E now (authenticationRequest E time chance (R.credentials (.an i))) =
      .ok true := by
  simp only [requestValid, authenticationRequest, parse_certificateField hE, Option.bind_some,
    hE.pubkey]
  have hid : (0 : UInt8).toUInt32 = R.id .gs := R.id_gs.symm
  exact checkPacketValidity_honest hE hn hnow hid _ _

omit hE in
variable (E) in
theorem sendReply_honest {n : Node} (hn : R.Has .gs n) (now : Time) (chance : Chance) (i : ι) :
    ∃ es r, n.sendAuthenticationReplyPacket E now chance (R.address (.an i))
        (R.address (.an i) % 3232235777).toUInt8 (R.credentials (.an i)).myRandomNo
        (R.credentials (.an i)).rsaKeyPair.publicKey = .ok es ∧
      Effect.posted chance n es = [r] ∧ IsReply E R n.sharedKey i r := by
  obtain ⟨j, hj⟩ := hn.socket
  have hid : (R.address (.an i) % 3232235777).toUInt8 = (R.id (.an i)).toUInt8 := by
    rw [← R.identification (.an i), UInt8.toUInt8_toUInt32]
  rw [hid, sendAuthenticationReplyPacket, hn.credentials]
  refine ⟨_, ⟨R.address .gs, R.address (.an i),
    TypeHeader.serialize ⟨.authenticationReply, true⟩ ++ (replyTo E R n now chance i).serialize,
    chance.freshUid⟩, rfl, ?_, rfl, rfl, n, now, chance, rfl, rfl⟩
  rw [Effect.posted_signData, Effect.posted_sendOverAuth chance hj, hn.authAddress]
  rfl

/-- The ground station answers a request with one reply, to its sender. -/
theorem recv_request {n : Node} (hn : R.Has .gs n) {now : Time} (hnow : now ≤ Time.seconds 5)
    (chance : Chance) {i : ι} {m : Message} (hm : IsRequest E R i m) :
    ∃ es r, n.recvAERORP E now chance m.datagram = .ok (n, es) ∧
      Effect.posted chance n es = [r] ∧ IsReply E R n.sharedKey i r := by
  obtain ⟨hsource, -, time, chance', hbytes⟩ := hm
  replace hbytes : m.datagram.packet.bytes = _ := hbytes
  replace hsource : m.datagram.body.sender = _ := hsource
  have hread : m.datagram.body.packet.removeHeader AuthenticationRequestHeader.deserialize =
      .ok (authenticationRequest E time chance' (R.credentials (.an i)),
        { m.datagram.body.packet with bytes := [] }) :=
    Datagram.removeHeader_body hbytes (AuthenticationRequestHeader.reads _)
  have hkey : (E.ssl.d2iX509 (authenticationRequest E time chance'
      (R.credentials (.an i))).certificate).bind X509.pubkey =
      some (R.credentials (.an i)).rsaKeyPair.publicKey := by
    simp only [authenticationRequest, parse_certificateField hE, Option.bind_some, hE.pubkey]
  obtain ⟨es, r, hsend, hposted⟩ := sendReply_honest E hn now chance i
  refine ⟨es, r, ?_, hposted⟩
  rw [recvAERORP_of_type E now chance _ n (Datagram.messageType_of_bytes hbytes),
    if_neg (by simp [Ignores, CarriesPosition]), recvMessage, recvAuthenticationRequest, hread,
    ok_bind, hsource]
  simp only [processRequest, hkey, requestValid_honest hE hn hnow, ok_bind, if_true]
  rw [show (authenticationRequest E time chance' (R.credentials (.an i))).randomNo =
    (R.credentials (.an i)).myRandomNo from rfl, hsend]
  rfl

/-- A reply makes the node it is for authenticated, with the key in it. -/
theorem recv_reply {i : ι} {n : Node} (hn : R.Has (.an i) n) {now : Time}
    (hnow : now ≤ Time.seconds 5) (chance : Chance) {key : Block SHARED_KEY_SIZE} {m : Message}
    (hm : IsReply E R key i m) :
    n.recvAERORP E now chance m.datagram =
      .ok ({ n with sharedKey := key, authenticationStatus := .auth }, []) := by
  obtain ⟨-, -, gs, time, chance', hkey, hbytes⟩ := hm
  replace hbytes : m.datagram.packet.bytes = _ := hbytes
  have hid : (R.id (.an i)).toUInt8.toUInt32 = R.id (.an i) := by
    have hlt := R.id_lt (.an i)
    apply UInt32.toNat_inj.mp
    rw [UInt8.toNat_toUInt32, UInt32.toNat_toUInt8, Nat.mod_eq_of_lt hlt]
  have hvalid : n.replyValid E now (replyTo E R gs time chance' i) = .ok true := by
    simp only [replyValid, replyTo, authenticationReply, parse_certificateField hE,
      Option.bind_some, hE.pubkey]
    exact checkPacketValidity_honest hE hn hnow hid _ _
  have haccepted : n.replyAccepted E now (replyTo E R gs time chance' i) = .ok true := by
    rw [replyAccepted, hvalid, ok_bind, hn.credentials]
    simp [verifyRandomNo, replyTo, authenticationReply]
    rfl
  have hdecrypt : n.decryptSharedKey E (R.credentials (.an i))
      (replyTo E R gs time chance' i).sharedKey = .ok { n with sharedKey := key } := by
    apply decryptSharedKey_of_decrypts
    rw [← hkey]
    exact hE.decrypt (.an i) _ _
  rw [recvAERORP_of_reply E now chance _ n (Datagram.reply_of_bytes hbytes)]
  exact processReply_of_accepted haccepted hn.credentials hdecrypt

end

theorem posted_request {i : ι} {n : Node} (hn : R.Has (.an i) n) {now : Time} {chance : Chance}
    {es : List Effect} (h : n.sendAuthenticationRequestPacket E now chance = .ok es) :
    ∃ m, Effect.posted chance n es = [m] ∧ IsRequest E R i m := by
  obtain ⟨j, hj⟩ := hn.socket
  rw [sendAuthenticationRequestPacket, hn.credentials] at h
  cases h
  rw [Effect.posted_signData, Effect.posted_sendOverAuth chance hj, hn.authAddress]
  exact ⟨_, rfl, rfl, R.address_gs.symm, now, chance, rfl⟩

/-! ### Invariants -/

/-- The nodes are the parties, the ground station keeps its key, and all that is in
flight is requests and replies. -/
structure Sound (E : Env β) (R : Roster ι) (key : Block SHARED_KEY_SIZE) (s : Handshakes ι) :
    Prop where
  has : ∀ p, R.Has p (s.nodes p)
  sharedKey : (s.nodes .gs).sharedKey = key
  inFlight : ∀ m ∈ s.inFlight, ∃ i, IsRequest E R i m ∨ IsReply E R key i m

/-- The node is authenticated, with the key. -/
def Authenticated (key : Block SHARED_KEY_SIZE) (i : ι) (s : Handshakes ι) : Prop :=
  (s.nodes (.an i)).authenticationStatus = .auth ∧ (s.nodes (.an i)).sharedKey = key

/-- The node's handshake is under way or has succeeded. -/
def Served (E : Env β) (R : Roster ι) (key : Block SHARED_KEY_SIZE) (i : ι) (s : Handshakes ι) :
    Prop :=
  (∃ m ∈ s.inFlight, IsRequest E R i m ∨ IsReply E R key i m) ∨ Authenticated key i s

/-! ### Steps -/

section
variable {key : Block SHARED_KEY_SIZE} {s t : Handshakes ι}

/-- Requests are for the ground station, replies for the airborne node. -/
theorem destination_honest {i : ι} {p : Party ι} {m : Message}
    (hm : IsRequest E R i m ∨ IsReply E R key i m) (hp : R.address p = m.destination) :
    p = .gs ∧ IsRequest E R i m ∨ p = .an i ∧ IsReply E R key i m := by
  rcases hm with hm | hm
  · exact .inl ⟨R.address_injective (hp.trans hm.2.1), hm⟩
  · exact .inr ⟨R.address_injective (hp.trans hm.2.1), hm⟩

variable [DecidableEq ι]

/-- A request is in flight as soon as it is sent. -/
theorem served_of_request (hs : Sound E R key s) {chance : Chance} {i : ι} {es : List Effect}
    (h : Does E s (.request chance i) t es) : Served E R key i t := by
  cases h with
  | request h =>
    obtain ⟨m, hposted, hm⟩ := posted_request (hs.has (.an i)) h
    refine .inl ⟨m, List.mem_append_right _ ?_, .inl hm⟩
    rw [hposted]
    exact List.mem_singleton_self m

variable (hE : R.Trusted E)
include hE

/-- The ground station can process a request, which puts a reply in flight. -/
theorem deliver_request (hs : Sound E R key s) (hnow : s.now ≤ Time.seconds 5) (chance : Chance)
    {i : ι} {m : Message} (hm : m ∈ s.inFlight) (hi : IsRequest E R i m) :
    ∃ es r, IsReply E R key i r ∧ Does E s (.deliver chance .gs m)
      { s with inFlight := s.inFlight.erase m ++ [r] } es := by
  obtain ⟨es, r, hrecv, hposted, hr⟩ := recv_request hE (hs.has .gs) hnow chance hi
  have hp := (hs.has .gs).authAddress.trans hi.2.1.symm
  have hdoes := Does.deliver hm hp hnow hrecv
  rw [hposted, Function.update_eq_self] at hdoes
  exact ⟨es, r, hs.sharedKey ▸ hr, hdoes⟩

/-- An airborne node can process a reply, which gives it the key. -/
theorem deliver_reply (hs : Sound E R key s) (hnow : s.now ≤ Time.seconds 5) (chance : Chance)
    {i : ι} {m : Message} (hm : m ∈ s.inFlight) (hi : IsReply E R key i m) :
    Does E s (.deliver chance (.an i) m) { s with
      nodes := Function.update s.nodes (.an i)
        { s.nodes (.an i) with sharedKey := key, authenticationStatus := .auth }
      inFlight := s.inFlight.erase m } [] := by
  have hp := (hs.has (.an i)).authAddress.trans hi.2.1.symm
  have hdoes := Does.deliver hm hp hnow (recv_reply hE (hs.has (.an i)) hnow chance hi)
  rwa [show Effect.posted chance _ [] = [] from rfl, List.append_nil] at hdoes

/-- A message in flight can be processed by the node it is addressed to. -/
theorem deliver_enabled (hs : Sound E R key s) (hnow : s.now ≤ Time.seconds 5) (chance : Chance)
    {m : Message} (hm : m ∈ s.inFlight) : ∃ p t es, Does E s (.deliver chance p m) t es := by
  obtain ⟨i, hrequest | hreply⟩ := hs.inFlight m hm
  · obtain ⟨es, r, -, hdoes⟩ := deliver_request hE hs hnow chance hm hrequest
    exact ⟨_, _, _, hdoes⟩
  · exact ⟨_, _, _, deliver_reply hE hs hnow chance hm hreply⟩

/-- Processing a request leaves the ground station as it is and puts a reply in
flight; processing a reply gives the airborne node the key. -/
theorem deliver_cases (hs : Sound E R key s) {chance : Chance} {p : Party ι} {m : Message}
    {es : List Effect} (h : Does E s (.deliver chance p m) t es) {i : ι}
    (hi : IsRequest E R i m ∨ IsReply E R key i m) :
    (p = .gs ∧ IsRequest E R i m ∧ ∃ r, IsReply E R key i r ∧
        t = { s with inFlight := s.inFlight.erase m ++ [r] }) ∨
      p = .an i ∧ t = { s with
        nodes := Function.update s.nodes (.an i)
          { s.nodes (.an i) with sharedKey := key, authenticationStatus := .auth }
        inFlight := s.inFlight.erase m } := by
  cases h with
  | @deliver _ _ _ n es hm hp hnow hrecv =>
    rw [(hs.has p).authAddress] at hp
    obtain ⟨rfl, hrequest⟩ | ⟨rfl, hreply⟩ := destination_honest hi hp
    · obtain ⟨es', r, hrecv', hposted, hr⟩ := recv_request hE (hs.has .gs) hnow chance hrequest
      cases hrecv.symm.trans hrecv'
      rw [hs.sharedKey] at hr
      refine .inl ⟨rfl, hrequest, r, hr, ?_⟩
      rw [hposted, Function.update_eq_self]
    · cases hrecv.symm.trans (recv_reply hE (hs.has (.an i)) hnow chance hreply)
      refine .inr ⟨rfl, ?_⟩
      simp [Effect.posted]

theorem sound_step {e : Event ι} {es : List Effect} (h : Does E s e t es) (hs : Sound E R key s) :
    Sound E R key t := by
  cases e with
  | advance dt =>
    cases h
    exact ⟨hs.has, hs.sharedKey, hs.inFlight⟩
  | request chance i =>
    cases h with
    | request h =>
      obtain ⟨r, hposted, hr⟩ := posted_request (hs.has (.an i)) h
      refine ⟨hs.has, hs.sharedKey, fun m hm => ?_⟩
      rcases List.mem_append.mp hm with hm | hm
      · exact hs.inFlight m hm
      · rw [hposted, List.mem_singleton] at hm
        exact ⟨i, .inl (hm ▸ hr)⟩
  | deliver chance p m =>
    obtain ⟨i, hi⟩ := hs.inFlight m h.mem_of_deliver
    obtain ⟨-, -, r, hr, rfl⟩ | ⟨-, rfl⟩ := deliver_cases hE hs h hi
    · refine ⟨hs.has, hs.sharedKey, fun m' hm' => ?_⟩
      rcases List.mem_append.mp hm' with hm' | hm'
      · exact hs.inFlight m' (List.mem_of_mem_erase hm')
      · exact ⟨i, .inr (List.mem_singleton.mp hm' ▸ hr)⟩
    · refine ⟨fun q => ?_, ?_, fun m' hm' => hs.inFlight m' (List.mem_of_mem_erase hm')⟩
      · by_cases hq : q = .an i
        · subst hq
          simp only [Function.update_self]
          exact (hs.has _).withKey key .auth
        · simp only [Function.update_of_ne hq]
          exact hs.has q
      · have hne : Party.gs ≠ Party.an i := by simp
        simp only [Function.update_of_ne hne]
        exact hs.sharedKey

/-- A node that is authenticated stays so: the replies on their way to it carry the
same key. -/
theorem authenticated_step {e : Event ι} {es : List Effect} (h : Does E s e t es)
    (hs : Sound E R key s) {i : ι} (hauth : Authenticated key i s) : Authenticated key i t := by
  cases e with
  | advance dt =>
    cases h
    exact hauth
  | request chance j =>
    cases h
    exact hauth
  | deliver chance p m =>
    obtain ⟨j, hj⟩ := hs.inFlight m h.mem_of_deliver
    obtain ⟨-, -, r, -, rfl⟩ | ⟨-, rfl⟩ := deliver_cases hE hs h hj
    · exact hauth
    · by_cases hij : Party.an i = Party.an j
      · simp only [Authenticated, hij, Function.update_self, and_self]
      · simp only [Authenticated, Function.update_of_ne hij]
        exact hauth

/-- A reply that is processed authenticates the node. -/
theorem authenticated_of_deliver (hs : Sound E R key s) {chance : Chance} {i : ι} {m : Message}
    {es : List Effect} (h : Does E s (.deliver chance (.an i) m) t es) :
    Authenticated key i t := by
  obtain ⟨j, hj⟩ := hs.inFlight m h.mem_of_deliver
  obtain ⟨hp, -⟩ | ⟨hp, rfl⟩ := deliver_cases hE hs h hj
  · cases hp
  · cases hp
    exact ⟨by simp, by simp⟩

/-- What was in flight is in flight, or was processed: a request became a reply, and
a reply authenticated the node. -/
theorem served_step {e : Event ι} {es : List Effect} (h : Does E s e t es)
    (hs : Sound E R key s) {i : ι} (hi : Served E R key i s) : Served E R key i t := by
  obtain ⟨m, hm, hmsg⟩ | hauth := hi
  swap
  · exact .inr (authenticated_step hE h hs hauth)
  cases e with
  | advance dt =>
    cases h
    exact .inl ⟨m, hm, hmsg⟩
  | request chance j =>
    cases h
    exact .inl ⟨m, List.mem_append_left _ hm, hmsg⟩
  | deliver chance p m' =>
    by_cases hmm : m = m'
    · subst hmm
      obtain ⟨-, -, r, hr, rfl⟩ | ⟨-, rfl⟩ := deliver_cases hE hs h hmsg
      · exact .inl ⟨r, List.mem_append_right _ (List.mem_singleton_self r), .inr hr⟩
      · exact .inr ⟨by simp, by simp⟩
    · obtain ⟨j, hj⟩ := hs.inFlight m' h.mem_of_deliver
      have herase : m ∈ s.inFlight.erase m' := (List.mem_erase_of_ne hmm).mpr hm
      obtain ⟨-, -, r, -, rfl⟩ | ⟨-, rfl⟩ := deliver_cases hE hs h hj
      · exact .inl ⟨m, List.mem_append_left _ herase, hmsg⟩
      · exact .inl ⟨m, herase, hmsg⟩

/-! ### Runs -/

variable {u : Handshakes ι} {tr : List (Transition (Handshakes ι) (Event ι) (List Effect))}

theorem sound_run (hrun : Run (Step E) s tr u) (hs : Sound E R key s) :
    Sound E R key u ∧ ∀ x ∈ tr, Sound E R key x.pre :=
  hrun.invariant (fun _ hx => sound_step hE hx) hs

/-- What a transition establishes in a sound run stays so if sound steps keep it. -/
theorem kept_run (hrun : Run (Step E) s tr u) (hs : Sound E R key s) {P : Handshakes ι → Prop}
    (hkeeps : ∀ y, Step E y → Sound E R key y.pre → P y.pre → P y.post)
    {x : Transition (Handshakes ι) (Event ι) (List Effect)} (hx : x ∈ tr)
    (h : Sound E R key x.pre → Does E x.pre x.event x.post x.out → P x.post) : P u := by
  have hstep : Does E x.pre x.event x.post x.out := hrun.step_of_mem x hx
  have hpre := (sound_run hE hrun hs).2 x hx
  refine (hrun.invariant_of_mem (I := fun t => Sound E R key t ∧ P t) ?_ x hx
    ⟨sound_step hE hstep hpre, h hpre hstep⟩).2
  exact fun y hy hinv => ⟨sound_step hE hy hinv.1, hkeeps y hy hinv.1 hinv.2⟩

/-- Every node whose reply was delivered is authenticated from then on. -/
theorem authenticated_run (hrun : Run (Step E) s tr u) (hs : Sound E R key s) {chance : Chance}
    {i : ι} {m : Message} {x : Transition (Handshakes ι) (Event ι) (List Effect)} (hx : x ∈ tr)
    (he : x.event = .deliver chance (.an i) m) : Authenticated key i u := by
  refine kept_run hE hrun hs (fun y hy hpre => authenticated_step hE hy hpre) hx fun hpre hstep => ?_
  rw [he] at hstep
  exact authenticated_of_deliver hE hpre hstep

/-- Every node that sent a request has its handshake under way or is authenticated. -/
theorem served_run (hrun : Run (Step E) s tr u) (hs : Sound E R key s) {chance : Chance} {i : ι}
    {x : Transition (Handshakes ι) (Event ι) (List Effect)} (hx : x ∈ tr)
    (he : x.event = .request chance i) : Served E R key i u := by
  refine kept_run hE hrun hs (fun y hy hpre => served_step hE hy hpre) hx fun hpre hstep => ?_
  rw [he] at hstep
  exact served_of_request hpre hstep

/-- With nothing in flight, two nodes can ask before either has got a reply, and get their replies
in the other order. -/
theorem exists_interleaved (hs : Sound E R key s) (hnow : s.now ≤ Time.seconds 5)
    (hempty : s.inFlight = []) (chance : Chance) {i j : ι} (hij : i ≠ j) :
    ∃ tr u, Run (Step E) s tr u ∧ u.inFlight = [] ∧ (∃ x ∈ tr, x.event = .request chance i) ∧
      ∃ x ∈ tr, x.event = .request chance j := by
  have hsend : ∀ k, ∃ es,
      (s.nodes (.an k)).sendAuthenticationRequestPacket E s.now chance = .ok es := fun k => by
    rw [sendAuthenticationRequestPacket, (hs.has (.an k)).credentials]
    exact ⟨_, rfl⟩
  obtain ⟨es, hsend₁⟩ := hsend i
  obtain ⟨m, hposted, hm⟩ := posted_request (hs.has (.an i)) hsend₁
  have hask := Does.request hsend₁
  rw [hposted, hempty] at hask
  have hs₁ := sound_step hE hask hs
  obtain ⟨es', hsend₂⟩ := hsend j
  obtain ⟨m', hposted', hm'⟩ := posted_request (hs.has (.an j)) hsend₂
  have hask' : Does E { s with inFlight := [m] } (.request chance j)
      { s with inFlight := [m, m'] } es' := hposted' ▸ .request hsend₂
  have hs₂ := sound_step hE hask' hs₁
  obtain ⟨_, r, hr, hanswer⟩ := deliver_request hE hs₂ hnow chance List.mem_cons_self hm
  rw [List.erase_cons_head] at hanswer
  have hs₃ := sound_step hE hanswer hs₂
  obtain ⟨_, r', hr', hanswer'⟩ := deliver_request hE hs₃ hnow chance List.mem_cons_self hm'
  rw [List.singleton_append, List.erase_cons_head] at hanswer'
  have hs₄ := sound_step hE hanswer' hs₃
  have hmem : r' ∈ ([r] ++ [r'] : List Message) := List.mem_append_right _ List.mem_cons_self
  have hauth := deliver_reply hE hs₄ hnow chance hmem hr'
  have hne : r ≠ r' := by
    rintro rfl
    exact hij (Party.an.inj (R.address_injective (hr.2.1.symm.trans hr'.2.1)))
  have herase : ([r] ++ [r'] : List Message).erase r' = [r] := by
    simp [List.erase_cons_tail, hne]
  rw [herase] at hauth
  have hs₅ := sound_step hE hauth hs₄
  have hauth' := deliver_reply hE hs₅ hnow chance List.mem_cons_self hr
  exact ⟨_, _, .cons (x := ⟨_, _, _, _⟩) rfl hask (.cons (x := ⟨_, _, _, _⟩) rfl hask'
    (.cons (x := ⟨_, _, _, _⟩) rfl hanswer (.cons (x := ⟨_, _, _, _⟩) rfl hanswer'
      (.cons (x := ⟨_, _, _, _⟩) rfl hauth (.single ⟨_, _, _, _⟩ hauth'))))),
    List.erase_cons_head _ _, ⟨_, List.mem_cons_self, rfl⟩,
    _, List.mem_cons_of_mem _ List.mem_cons_self, rfl⟩

end

/-- From the start of a ground station and any number of airborne nodes on, in
whatever order their messages are processed in the first 5 s: no message changes a
node it is not addressed to, every message in flight can be processed, every node
that has got a reply is authenticated with the ground station's key, and so is
every node that sent a request once nothing is in flight. -/
theorem honest_handshakes_succeed [DecidableEq ι] (E : Env β) (R : Roster ι) (hE : R.Trusted E)
    (s u : Handshakes ι) (tr : List (Transition (Handshakes ι) (Event ι) (List Effect)))
    (hrun : Run (Step E) s tr u) (hs : ∀ p, R.Has p (s.nodes p)) (hempty : s.inFlight = []) :
    (u.nodes .gs).sharedKey = (s.nodes .gs).sharedKey ∧
      (∀ x ∈ tr, ∀ chance p m, x.event = .deliver chance p m →
        ∀ q, R.address q ≠ m.destination → x.post.nodes q = x.pre.nodes q) ∧
      (∀ m ∈ u.inFlight, u.now ≤ Time.seconds 5 → ∀ chance, ∃ p t es,
        Does E u (.deliver chance p m) t es) ∧
      (∀ x ∈ tr, ∀ chance i m, x.event = .deliver chance (.an i) m →
        Authenticated (u.nodes .gs).sharedKey i u) ∧
      (u.inFlight = [] → ∀ x ∈ tr, ∀ chance i, x.event = .request chance i →
        Authenticated (u.nodes .gs).sharedKey i u) := by
  have hsound : Sound E R (s.nodes .gs).sharedKey s :=
    ⟨hs, rfl, fun m hm => by rw [hempty] at hm; cases hm⟩
  obtain ⟨hu, hpre⟩ := sound_run hE hrun hsound
  refine ⟨hu.sharedKey, fun x hx chance p m he q hq => ?_,
    fun m hm hnow chance => deliver_enabled hE hu hnow chance hm,
    fun x hx chance i m he => ?_, fun hnone x hx chance i he => ?_⟩
  · have hstep : Does E x.pre x.event x.post x.out := hrun.step_of_mem x hx
    rw [he] at hstep
    exact hstep.nodes_of_deliver fun h => hq (((hpre x hx).has q).authAddress.symm.trans h)
  · rw [hu.sharedKey]
    exact authenticated_run hE hrun hsound hx he
  · rw [hu.sharedKey]
    obtain ⟨m, hm, -⟩ | hauth := served_run hE hrun hsound hx he
    · rw [hnone] at hm
      cases hm
    · exact hauth

/-! ### Two handshakes -/

/-- Certificates of the sample library, filled up to CERT_SIZE bytes. -/
def certBytes (c : X509) : Block CERT_SIZE := Sample.fill CERT_SIZE (Sample.ssl.i2dX509 c)

def certSsl : OpenSsl := { Sample.ssl with i2dX509 := fun c => (certBytes c).toList }

def env : Env ℚ := { Sample.env with ssl := certSsl }

theorem i2dX509_env (c : X509) : env.ssl.i2dX509 c = (certBytes c).toList := by
  simp only [env, certSsl]

/-- The ground station, node 1 and node 2. -/
def number : Party Bool → UInt8
  | .gs => 0
  | .an i => if i then 2 else 1

def roster : Roster Bool where
  id p := (number p).toUInt32
  credentials p := Sample.credentials (number p)
  id_gs := rfl
  id_lt p := by
    obtain _ | _ | _ := p
    · exact show (0 : ℕ) < 256 by decide
    · exact show (1 : ℕ) < 256 by decide
    · exact show (2 : ℕ) < 256 by decide
  id_injective := by
    rintro (_ | _ | _) (_ | _ | _) h <;> first | rfl | cases h

theorem parse_certBytes (p : Party Bool) :
    env.ssl.d2iX509 (certBytes (roster.credentials p).myCert) =
      some (roster.credentials p).myCert := by
  have h0 : (0 : ℕ) < CERT_SIZE := by decide
  have h1 : (1 : ℕ) < CERT_SIZE := by decide
  have h2 : (2 : ℕ) < CERT_SIZE := by decide
  simp only [env, certSsl, Sample.ssl, certBytes, Sample.getD_fill h0, Sample.getD_fill h1,
    Sample.getD_fill h2]
  obtain _ | _ | _ := p <;> rfl

theorem roster_trusted : roster.Trusted env := by
  refine ⟨fun p => ?_, fun p b hb => ?_, fun p => rfl, fun p q => ?_, fun p data => ?_,
    fun p padding m => ?_⟩
  · rw [i2dX509_env, List.Vector.toList_length]
  · rw [i2dX509_env] at hb
    rw [List.Vector.toList_injective hb]
    exact parse_certBytes p
  · simp [env, certSsl, Sample.ssl, roster, Sample.credentials]
  · simp [env, certSsl, Sample.ssl]
  · simp only [env, certSsl]
    exact Sample.rsaPrivateDecrypt_rsaPublicEncrypt _ padding m

def first : Handshakes Bool := ⟨0, fun p => Sample.secureNode (number p), []⟩

theorem has_first (p : Party Bool) : roster.Has p (first.nodes p) := by
  obtain ⟨hipv4, hsockets⟩ := Sample.config_secureNode (number p)
  refine ⟨?_, ?_, Sample.credentials_secureNode (number p), ?_⟩
  · obtain _ | _ | _ := p <;> rfl
  · show (Sample.secureNode (number p)).authAddress = _
    rw [authAddress, hipv4]
    obtain _ | _ | _ := p <;> decide
  · show ∃ j, (Sample.secureNode (number p)).authSocketAddresses.toList = [j]
    rw [hsockets]
    exact ⟨(2, Sample.interface (number p) 2), rfl⟩

theorem sound_first : Sound env roster (first.nodes .gs).sharedKey first :=
  ⟨has_first, rfl, fun m hm => by cases hm⟩

/-- The handshakes of nodes 1 and 2 take their courses at the same time, and authenticate both. -/
theorem honest_handshakes_succeed_sample :
    ∃ tr u, Run (Step env) first tr u ∧ ∀ i, Authenticated (u.nodes .gs).sharedKey i u := by
  obtain ⟨tr, u, hrun, hnone, ⟨x, hx, he⟩, y, hy, he'⟩ := exists_interleaved roster_trusted
    sound_first (show (0 : ℤ) ≤ Time.seconds 5 by decide) rfl Sample.chance Bool.false_ne_true
  have hsucceed := (honest_handshakes_succeed env roster roster_trusted first u tr hrun has_first
    rfl).2.2.2.2 hnone
  refine ⟨tr, u, hrun, fun i => ?_⟩
  cases i with
  | false => exact hsucceed x hx Sample.chance _ he
  | true => exact hsucceed y hy Sample.chance _ he'

end SAeroRP.Handshakes
