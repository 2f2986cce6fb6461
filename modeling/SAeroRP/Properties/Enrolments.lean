import SAeroRP.Properties.Advertisements
import SAeroRP.Properties.Handshakes
import SAeroRP.Properties.LateJoiners
import SAeroRP.System.Enrolment

/-! Authentication in time. An airborne node asks once, an interval after Start at the latest; where
request and reply arrive within the first five seconds, the node is authenticated with the key of
the ground station from then on, whatever else it does and whatever else it gets. -/

namespace SAeroRP

open Library

variable {β : Type} [Preorder β] [DecidableLT β] [DecidableEq β] [Zero β] {E : Env β}
  {I : Intervals} {outOfRange : ℚ → UInt32}

/-! ### Letters -/

/-- Messages from different draws differ in their uid. -/
theorem Effect.posted_eq_map (chance chance' : Chance) (n : Node) (es : List Effect) :
    posted chance n es =
      (posted chance' n es).map fun m => { m with uid := chance.freshUid } := by
  rw [posted, posted, List.map_filterMap]
  refine List.filterMap_congr fun e _ => ?_
  cases e <;> rfl

namespace Posts

variable {d now : Time} {n : Node} {es : List Effect} {ls : List Letter}

/-- One message of the key exchange becomes one letter. -/
theorem eq_singleton (h : Posts d now n es ls) {chance : Chance} {m : Message}
    (hm : Effect.posted chance n es = [m]) (hauth : m.datagram.IsAuthentication) :
    ∃ l uid, ls = [l] ∧ l.message = { m with uid } ∧ now ≤ l.deadline ∧ l.deadline ≤ now + d := by
  obtain ⟨chance', hls⟩ := h.message
  have hauth' : ({ m with uid := chance'.freshUid } : Message).datagram.IsAuthentication := hauth
  rw [Effect.posted_eq_map chance' chance, hm, List.map_singleton,
    List.filter_singleton, decide_eq_true hauth', cond_true] at hls
  obtain ⟨l, rfl, hl⟩ := List.map_eq_singleton_iff.mp hls
  exact ⟨l, _, rfl, hl, h.deadline l (List.mem_singleton_self l)⟩

/-- Nothing is posted where no message of the key exchange is sent. -/
theorem eq_nil (h : Posts d now n es ls)
    (hnone : ∀ socket bytes destination, .sendTo socket bytes destination ∈ es →
      ∀ m : Message, m.bytes = bytes → ¬ m.datagram.IsAuthentication) : ls = [] := by
  obtain ⟨chance, hls⟩ := h.message
  rw [← List.map_eq_nil_iff (f := Letter.message), hls, List.filter_eq_nil_iff]
  intro m hm hauth
  obtain ⟨e, he, hsome⟩ := List.mem_filterMap.mp hm
  cases e with
  | sendTo socket bytes destination =>
    cases hsome
    exact hnone _ _ _ he _ rfl (by simpa using hauth)
  | _ => cases hsome

end Posts

/-! ### Steps of one node -/

theorem Sys.Does.authSocketAddresses {s t : Sys} {e : Event} {o : Output} (h : Does E s e t o) :
    t.node.authSocketAddresses = s.node.authSocketAddresses := by
  cases h with
  | advance => rfl
  | move => rfl
  | recv h => rw [(Node.recvAERORP_receives h).frame]
  | routeOutput h => rw [(Node.routeOutput_routes h).frame]
  | routeInput h => rw [(Node.routeInput_routes h).frame]
  | checkQueue => rw [(Node.checkQueue_routes (n := s.node)).frame]
  | authenticationTimer => rfl

namespace Advertiser

variable {s t : Advertiser} {e : Event} {es : List Effect}

/-- Two states of one party. -/
structure SameParty (s t : Advertiser) : Prop where
  nodeId : t.node.nodeId = s.node.nodeId
  ipv4 : t.node.ipv4 = s.node.ipv4
  authSocketAddresses : t.node.authSocketAddresses = s.node.authSocketAddresses

theorem sameParty_start (created : Credentials) (generated : Block SHARED_KEY_SIZE)
    {s t : Advertiser} (h : t.node = s.node.start created generated) : s.SameParty t := by
  constructor <;> rw [h, Node.start] <;> dsimp only <;> split_ifs <;> rfl

theorem Does.sameParty (h : Does E I outOfRange s e t es) : s.SameParty t := by
  cases h with
  | advance => exact ⟨rfl, rfl, rfl⟩
  | start _ _ _ h => exact sameParty_start _ _ (start_ok h).1
  | helloTimer _ _ h =>
    obtain ⟨-, -, rfl⟩ := helloTimerExpire_ok h
    exact ⟨rfl, rfl, rfl⟩
  | gsTimer _ _ h =>
    obtain ⟨-, -, rfl⟩ := gsTimerExpire_ok h
    exact ⟨rfl, rfl, rfl⟩
  | authenticationTimer _ h =>
    obtain ⟨-, rfl⟩ := authenticationTimerExpire_ok h
    exact ⟨rfl, rfl, rfl⟩
  | call _ h => exact ⟨h.sameConfig.nodeId, h.sameConfig.ipv4, h.authSocketAddresses⟩

/-- Only Start gives a node credentials. -/
theorem Does.credentials (h : Does E I outOfRange s e t es) (he : e ≠ .start) :
    t.node.credentials = s.node.credentials := by
  cases h with
  | advance => rfl
  | start => exact absurd rfl he
  | helloTimer _ _ h =>
    obtain ⟨-, -, rfl⟩ := helloTimerExpire_ok h
    rfl
  | gsTimer _ _ h =>
    obtain ⟨-, -, rfl⟩ := gsTimerExpire_ok h
    rfl
  | authenticationTimer _ h =>
    obtain ⟨-, rfl⟩ := authenticationTimerExpire_ok h
    rfl
  | call _ h => exact h.sameConfig.credentials

theorem sameKeys_call {n m : Node} {now : Time} {c : SAeroRP.Event} {o : Output}
    (he : Enrolment.IsLocal (.call c)) (h : Sys.Does E ⟨now, n⟩ c ⟨now, m⟩ o) :
    n.SameKeys m := by
  by_cases hrecv : ∃ chance d, c = .recv chance d
  · obtain ⟨chance, d, rfl⟩ := hrecv
    cases h with
    | recv h =>
      refine Node.recvAERORP_sameKeys h ?_
      rw [Datagram.reply, if_neg fun hreply => he (.inr hreply)]
  · push Not at hrecv
    exact h.sameKeys hrecv

/-- A local event other than Start leaves the outcome of the key exchange alone. -/
theorem Does.sameKeys (h : Does E I outOfRange s e t es) (he : Enrolment.IsLocal e)
    (hne : e ≠ .start) : s.node.SameKeys t.node := by
  cases h with
  | advance => exact ⟨rfl, rfl⟩
  | start => exact absurd rfl hne
  | helloTimer _ _ h =>
    obtain ⟨-, -, rfl⟩ := helloTimerExpire_ok h
    exact ⟨rfl, rfl⟩
  | gsTimer _ _ h =>
    obtain ⟨-, -, rfl⟩ := gsTimerExpire_ok h
    exact ⟨rfl, rfl⟩
  | authenticationTimer _ h =>
    obtain ⟨-, rfl⟩ := authenticationTimerExpire_ok h
    exact ⟨rfl, rfl⟩
  | call _ h => exact sameKeys_call he h

theorem not_isAuthentication_of_type {type : MessageType} {bs : Bytes} {m : Message}
    (hbytes : m.bytes = TypeHeader.serialize ⟨type, true⟩ ++ bs)
    (hrequest : type ≠ .authenticationRequest) (hreply : type ≠ .authenticationReply) :
    ¬ m.datagram.IsAuthentication := by
  have htype : m.datagram.messageType = some type := Datagram.messageType_of_bytes hbytes
  simp [Datagram.IsAuthentication, htype, hrequest, hreply]

omit [Preorder β] [DecidableLT β] [DecidableEq β] [Zero β] in
theorem not_isSend_recvAERORP_of_isLocal {n m : Node} {now : Time} {chance : Chance}
    {d : Datagram} (he : Enrolment.IsLocal (.call (.recv chance d)))
    (h : n.recvAERORP E now chance d = .ok (m, es)) : ∀ eff ∈ es, ¬ eff.IsSend := by
  rcases Node.recvAERORP_effects h with rfl | ⟨_, _, _, rfl⟩ | ⟨_, _, _, rfl⟩ |
    ⟨hdr, _, _, hrequest, -⟩
  · simp
  · simp [Effect.IsSend]
  · simp [Effect.IsSend]
  · rw [Datagram.request, if_neg fun htype => he (.inl htype)] at hrequest
    cases hrequest

theorem isLocal_of_ne_recv (he : Enrolment.IsLocal e)
    (hrecv : ∀ chance d, e ≠ .call (.recv chance d)) : Fleet.IsLocal e := by
  cases e with
  | advance => exact he
  | call c =>
    cases c with
    | recv chance d => exact hrecv chance d rfl
    | _ => trivial
  | _ => trivial

/-- Only the timer of the authentication makes a local event post a letter. -/
theorem Does.posts_nil (h : Does E I outOfRange s e t es) (he : Enrolment.IsLocal e)
    (hne : e ≠ .authenticationTimer) {d now : Time} {n : Node} {ls : List Letter}
    (hls : Posts d now n es ls) : ls = [] := by
  refine hls.eq_nil fun socket bytes destination hsend m hbytes => ?_
  by_cases hrecv : ∃ chance dgram, e = .call (.recv chance dgram)
  · obtain ⟨chance, dgram, rfl⟩ := hrecv
    cases h with
    | call _ h =>
      cases h with
      | recv h =>
        exact absurd trivial (not_isSend_recvAERORP_of_isLocal he h _ hsend)
  · push Not at hrecv
    rcases h.send_cases (isLocal_of_ne_recv he hrecv) hsend with rfl | ⟨-, rfl⟩ | ⟨-, hdr, rfl⟩
    · exact absurd rfl hne
    · exact not_isAuthentication_of_type hbytes (by simp) (by simp)
    · exact not_isAuthentication_of_type hbytes (by simp) (by simp)

theorem New.not_advertises (h : New s) : ¬ s.Advertises I := by
  intro hadvertises
  obtain ⟨expiry, hwaits⟩ := hadvertises.waits
  have hown := hwaits.own
  rw [ownTimer, h.gsTimer, h.helloIntervalTimer, ite_self] at hown
  cases hown

end Advertiser

namespace Enrolment

open Handshakes (IsRequest IsReply)

variable {ι : Type} {R : Roster ι} {d : Time} {s t u : Enrolment ι} {e : Event ι}
  {ls : List Letter} {i j : ι}

/-! ### Parties -/

/-- The node is the party of the roster, and has its credentials from Start on. -/
structure Member (R : Roster ι) (I : Intervals) (p : Party ι) (n : Advertiser) : Prop where
  nodeId : n.node.nodeId = R.id p
  authAddress : n.node.authAddress = R.address p
  socket : ∃ j, n.node.authSocketAddresses.toList = [j]
  secure : n.node.securityState = true
  role : n.node.isGroundStation = true ↔ p = .gs
  mute : p = .gs → n.authenticationTimer.expiry = none
  phase : n.New ∧ n.node.credentials = none ∨
    n.Advertises I ∧ n.node.credentials = some (R.credentials p)

theorem Member.has {p : Party ι} {n : Advertiser} (hn : Member R I p n) (h : n.Advertises I) :
    R.Has p n.node := by
  rcases hn.phase with ⟨hnew, -⟩ | ⟨-, hcredentials⟩
  · exact absurd h hnew.not_advertises
  · exact ⟨hn.nodeId, hn.authAddress, hcredentials, hn.socket⟩

theorem Member.does (hI : 0 ≤ I.gsInterval) {p : Party ι} {n m : Advertiser}
    {e : Advertiser.Event} {es : List Effect} (hn : Member R I p n)
    (h : Advertiser.Does E I outOfRange n e m es)
    (hcreated : e = .start → m.node.credentials = some (R.credentials p)) : Member R I p m := by
  have hparty := h.sameParty
  have hrole := h.sameRole
  refine ⟨hparty.nodeId.trans hn.nodeId, ?_, ?_, hrole.securityState.trans hn.secure, ?_,
    fun hp => ?_, ?_⟩
  · rw [Node.authAddress, hparty.ipv4]
    exact hn.authAddress
  · rw [hparty.authSocketAddresses]
    exact hn.socket
  · rw [hrole.isGroundStation]
    exact hn.role
  · exact (Advertiser.mute_step ⟨n, e, es, m⟩ h ⟨.inl (hn.role.mpr hp), hn.mute hp⟩).2
  · rcases hn.phase with ⟨hnew, hnone⟩ | ⟨hadvertises, hsome⟩
    · rcases hnew.step h with ⟨hstart, hpost⟩ | ⟨hpost, -, hne, -⟩
      · exact .inr ⟨hpost hI, hcreated hstart⟩
      · exact .inl ⟨hpost, (h.credentials hne).trans hnone⟩
    · exact .inr ⟨(hadvertises.step h).1,
        (h.credentials (hadvertises.ne_start h)).trans hsome⟩

/-- The letter is a request of the node, or the ground station's reply to it. -/
def Serves (E : Env β) (R : Roster ι) (I : Intervals) (s : Enrolment ι) (i : ι) (l : Letter) :
    Prop :=
  IsRequest E R i l.message ∨
    (s.nodes .gs).Advertises I ∧ IsReply E R (s.nodes .gs).node.sharedKey i l.message

/-- The letter is for the handshake of a node that was started. -/
def Honest (E : Env β) (R : Roster ι) (I : Intervals) (s : Enrolment ι) (l : Letter) : Prop :=
  ∃ i, (s.nodes (.an i)).Advertises I ∧ Serves E R I s i l

structure Sound (E : Env β) (R : Roster ι) (I : Intervals) (s : Enrolment ι) : Prop where
  clock : ∀ p, (s.nodes p).now = s.now
  member : ∀ p, Member R I p (s.nodes p)
  pending : ∀ l ∈ s.inFlight, s.now ≤ l.deadline
  honest : ∀ l ∈ s.inFlight, Honest E R I s l

omit [Preorder β] [DecidableLT β] [DecidableEq β] [Zero β] in
theorem Initial.sound [DecidableEq ι] (h : Initial R s) : Sound E R I s where
  clock := h.now
  member p := ⟨h.nodeId p, h.authAddress p, h.socket p, h.secure p, by simp [h.role p],
    fun _ => by rw [(h.new p).authenticationTimer], .inl ⟨h.new p, h.credentials p⟩⟩
  pending l hl := by
    rw [h.inFlight] at hl
    cases hl
  honest l hl := by
    rw [h.inFlight] at hl
    cases hl

/-! ### Requests and replies -/

section
omit [Preorder β] [DecidableLT β] [DecidableEq β] [Zero β]
variable {now : Time} {chance : Chance} {m : Message} {n k : Node} {es : List Effect}
  {key : Block SHARED_KEY_SIZE}

theorem messageType_of_isRequest (h : IsRequest E R i m) :
    m.datagram.messageType = some .authenticationRequest := by
  obtain ⟨-, -, time, chance, hbytes⟩ := h
  exact Datagram.messageType_of_bytes hbytes

theorem messageType_of_isReply (h : IsReply E R key i m) :
    m.datagram.messageType = some .authenticationReply := by
  obtain ⟨-, -, gs, time, chance, -, hbytes⟩ := h
  exact Datagram.messageType_of_bytes hbytes

theorem not_isReply_of_isRequest (h : IsRequest E R i m) : ¬ IsReply E R key j m := by
  intro hreply
  have htype := messageType_of_isRequest h
  rw [messageType_of_isReply hreply] at htype
  cases htype

theorem isRequest_inj (h : IsRequest E R i m) (h' : IsRequest E R j m) : i = j :=
  Party.an.inj (R.address_injective (h.1.symm.trans h'.1))

theorem isReply_inj {key' : Block SHARED_KEY_SIZE} (h : IsReply E R key i m)
    (h' : IsReply E R key' j m) : i = j :=
  Party.an.inj (R.address_injective (h.2.1.symm.trans h'.2.1))

/-- The ground station stays as it is under a request. -/
theorem node_of_request (hm : IsRequest E R i m)
    (h : n.recvAERORP E now chance m.datagram = .ok (k, es)) : k = n := by
  rcases Node.recvAERORP_ok h with ⟨hk, -⟩ | ⟨type, htype, -, h⟩
  · exact hk
  · rw [messageType_of_isRequest hm] at htype
    cases htype
    obtain ⟨⟨hdr, rest⟩, -, h⟩ := bind_eq_ok.mp h
    exact (Node.processRequest_ok h).1

/-- Without credentials it cannot process one. -/
theorem recv_request_ne_ok (hE : R.Trusted E) (hn : n.credentials = none)
    (hm : IsRequest E R i m) : n.recvAERORP E now chance m.datagram ≠ .ok (k, es) := by
  obtain ⟨-, -, time, chance', hbytes⟩ := hm
  replace hbytes : m.datagram.packet.bytes = _ := hbytes
  have hread := Datagram.removeHeader_body hbytes (AuthenticationRequestHeader.reads _)
  have hkey : (E.ssl.d2iX509 (Node.authenticationRequest E time chance'
      (R.credentials (.an i))).certificate).bind X509.pubkey =
      some (R.credentials (.an i)).rsaKeyPair.publicKey := by
    simp only [Node.authenticationRequest, Handshakes.parse_certificateField hE, Option.bind_some,
      hE.pubkey]
  have hvalid : n.requestValid E now (Node.authenticationRequest E time chance'
      (R.credentials (.an i))) = .error .nullPointer := by
    rw [Node.requestValid, Node.checkPacketValidity, Node.verifyCert, hn]
    rfl
  rw [Node.recvAERORP_of_type E now chance _ n (Datagram.messageType_of_bytes hbytes),
    if_neg (by simp [Node.Ignores, Node.CarriesPosition]), Node.recvMessage,
    Node.recvAuthenticationRequest, hread, ok_bind]
  simp only [Node.processRequest, hkey, hvalid]
  exact fun h => by cases h

/-- A request is answered with a reply in the first five seconds, and not at all later. -/
theorem letters_of_request (hE : R.Trusted E) (hn : R.Has .gs n) (hm : IsRequest E R i m)
    (h : n.recvAERORP E now chance m.datagram = .ok (n, es)) (hls : Posts d now n es ls) :
    (∀ r ∈ ls, IsReply E R n.sharedKey i r.message ∧ now ≤ r.deadline ∧ r.deadline ≤ now + d) ∧
      (now ≤ Time.seconds 5 → ls ≠ []) := by
  by_cases hnow : now ≤ Time.seconds 5
  · obtain ⟨es', r, hrecv, hposted, hr⟩ := Handshakes.recv_request hE hn hnow chance hm
    rw [hrecv] at h
    cases h
    obtain ⟨l, uid, rfl, hl, hdeadline⟩ :=
      hls.eq_singleton hposted (.inr (messageType_of_isReply hr))
    refine ⟨fun r' hr' => ?_, fun _ => List.cons_ne_nil _ _⟩
    rw [List.mem_singleton.mp hr', hl]
    exact ⟨hr, hdeadline⟩
  · have hnil : ls = [] := hls.eq_nil fun _ _ _ hsend =>
      absurd trivial (Node.not_isSend_recvAERORP_late (not_le.mp hnow) h _ hsend)
    rw [hnil]
    exact ⟨by simp, fun hle => absurd hle hnow⟩

/-- A reply has no effects. -/
theorem effects_of_reply (hm : IsReply E R key i m)
    (h : n.recvAERORP E now chance m.datagram = .ok (k, es)) : es = [] := by
  rcases Node.recvAERORP_ok h with ⟨-, hes⟩ | ⟨type, htype, -, h⟩
  · exact hes
  · rw [messageType_of_isReply hm] at htype
    cases htype
    obtain ⟨⟨hdr, rest⟩, -, h⟩ := bind_eq_ok.mp h
    exact (Node.processReply_ok h).1

end

/-! ### Deliveries -/

section
variable [DecidableEq ι]

/-- What the delivery of a letter does to the node `n` it is for. -/
inductive Delivered (E : Env β) (R : Roster ι) (I : Intervals) (d : Time) (s : Enrolment ι)
    (l : Letter) : Party ι → Advertiser → List Letter → Prop
  | request {i : ι} {ls : List Letter} (hl : IsRequest E R i l.message)
      (hi : (s.nodes (.an i)).Advertises I) (hgs : (s.nodes .gs).Advertises I)
      (hls : ∀ r ∈ ls, IsReply E R (s.nodes .gs).node.sharedKey i r.message ∧
        s.now ≤ r.deadline ∧ r.deadline ≤ s.now + d)
      (hanswer : s.now ≤ Time.seconds 5 → ls ≠ []) :
      Delivered E R I d s l .gs (s.nodes .gs) ls
  | reply {i : ι} {n : Advertiser} (hgs : (s.nodes .gs).Advertises I)
      (hl : IsReply E R (s.nodes .gs).node.sharedKey i l.message)
      (hauth : s.now ≤ Time.seconds 5 → n.node.authenticationStatus = .auth ∧
        n.node.sharedKey = (s.nodes .gs).node.sharedKey) :
      Delivered E R I d s l (.an i) n []

theorem Sound.deliver (hE : R.Trusted E) (hs : Sound E R I s) {chance : Chance} {p : Party ι}
    {l : Letter} (h : Does E I outOfRange R d s (.deliver chance p l) t ls) :
    l ∈ s.inFlight ∧ ∃ n, (∃ es, Advertiser.Does E I outOfRange (s.nodes p)
        (.call (.recv chance l.message.datagram)) n es) ∧
      Delivered E R I d s l p n ls ∧
      t = { s with
        nodes := Function.update s.nodes p n
        inFlight := s.inFlight.erase l ++ ls } := by
  cases h with
  | @deliver _ _ _ n es _ hl hp h hls =>
    refine ⟨hl, n, ⟨es, h⟩, ?_, rfl⟩
    obtain ⟨i, hi, hmessage⟩ := hs.honest l hl
    rw [(hs.member p).authAddress] at hp
    have hclock := hs.clock p
    have hmember := hs.member p
    generalize hfrom : s.nodes p = receiver at h hclock hmember
    cases h with
    | call _ h =>
      rw [hclock] at h
      cases h with
      | recv hrecv =>
        rcases hmessage with hrequest | ⟨hgs, hreply⟩
        · obtain rfl : p = .gs := R.address_injective (hp.trans hrequest.2.1)
          have hnode := node_of_request hrequest hrecv
          have hgs : receiver.Advertises I := by
            rcases hmember.phase with ⟨-, hnone⟩ | ⟨hgs, -⟩
            · exact absurd hrecv (recv_request_ne_ok hE hnone hrequest)
            · exact hgs
          have hsame : { receiver with node := receiver.node } = s.nodes .gs := hfrom.symm
          rw [hnode] at hrecv hls ⊢
          rw [hsame]
          obtain ⟨hall, hanswer⟩ := letters_of_request hE (hmember.has hgs) hrequest hrecv hls
          exact .request hrequest hi (hfrom ▸ hgs) (hfrom ▸ hall) hanswer
        · obtain rfl : p = .an i := R.address_injective (hp.trans hreply.2.1)
          have hnone := effects_of_reply hreply hrecv
          have hnil : ls = [] := hls.eq_nil fun _ _ _ hsend => by
            rw [hnone] at hsend
            cases hsend
          rw [hnil]
          refine .reply hgs hreply fun hnow => ?_
          rw [Handshakes.recv_reply hE (hmember.has (hfrom ▸ hi)) hnow chance hreply] at hrecv
          cases hrecv
          exact ⟨rfl, rfl⟩

/-! ### Steps -/

theorem Does.nonneg {dt : Time} (h : Does E I outOfRange R d s (.advance dt) t ls) : 0 ≤ dt := by
  cases h with
  | advance hnodes => exact (hnodes .gs).nonneg

omit [DecidableEq ι] in
/-- The expiry of the timer posts one request. -/
theorem Member.posts_request {p : Party ι} {n m : Advertiser} {es : List Effect} {now : Time}
    (hn : Member R I p n) (h : Advertiser.Does E I outOfRange n .authenticationTimer m es)
    (hls : Posts d now m.node es ls) :
    n.Advertises I ∧ n.authenticationTimer.expiry ≠ none ∧ ∃ i l, p = .an i ∧ ls = [l] ∧
      IsRequest E R i l.message ∧ now ≤ l.deadline ∧ l.deadline ≤ now + d := by
  cases h with
  | authenticationTimer hdue h =>
    obtain ⟨hsend, rfl⟩ := Advertiser.authenticationTimerExpire_ok h
    have hadvertises : n.Advertises I := by
      rcases hn.phase with ⟨hnew, -⟩ | ⟨hadvertises, -⟩
      · rw [hnew.authenticationTimer] at hdue
        cases hdue
      · exact hadvertises
    cases p with
    | gs =>
      rw [hn.mute rfl] at hdue
      cases hdue
    | an i =>
      obtain ⟨m, hposted, hm⟩ := Handshakes.posted_request (hn.has hadvertises) hsend
      obtain ⟨l, uid, rfl, hl, hdeadline⟩ :=
        hls.eq_singleton hposted (.inl (messageType_of_isRequest hm))
      refine ⟨hadvertises, by simp [hdue], i, l, rfl, rfl, ?_, hdeadline⟩
      rw [hl]
      exact hm

/-- What a node does on its own posts nothing, or one request as its timer expires. -/
theorem Sound.act (hs : Sound E R I s) {p : Party ι} {a : Advertiser.Event}
    (h : Does E I outOfRange R d s (.act p a) t ls) :
    a ≠ .authenticationTimer ∧ ls = [] ∨
      a = .authenticationTimer ∧ ∃ i l, p = .an i ∧ ls = [l] ∧ (s.nodes (.an i)).Advertises I ∧
        (s.nodes (.an i)).authenticationTimer.expiry ≠ none ∧ IsRequest E R i l.message ∧
        s.now ≤ l.deadline ∧ l.deadline ≤ s.now + d := by
  cases h with
  | act he h _ hls =>
    by_cases hne : a = .authenticationTimer
    · subst hne
      obtain ⟨hadvertises, hruns, i, l, rfl, hl⟩ := (hs.member p).posts_request h hls
      exact .inr ⟨rfl, i, l, rfl, hl.1, hadvertises, hruns, hl.2⟩
    · exact .inl ⟨hne, h.posts_nil he hne hls⟩

/-- Nodes that were started go on advertising, and a ground station keeps its key. -/
structure Keeps (I : Intervals) (s t : Enrolment ι) : Prop where
  advertises : ∀ p, (s.nodes p).Advertises I → (t.nodes p).Advertises I
  sharedKey : (s.nodes .gs).Advertises I →
    (t.nodes .gs).node.sharedKey = (s.nodes .gs).node.sharedKey

section
omit [DecidableEq ι] [Preorder β] [DecidableLT β] [DecidableEq β] [Zero β]

theorem Serves.keeps {l : Letter} (hl : Serves E R I s i l) (h : Keeps I s t) :
    Serves E R I t i l := by
  rcases hl with hrequest | ⟨hgs, hreply⟩
  · exact .inl hrequest
  · refine .inr ⟨h.advertises _ hgs, ?_⟩
    rwa [h.sharedKey hgs]

theorem Honest.keeps {l : Letter} (hl : Honest E R I s l) (h : Keeps I s t) :
    Honest E R I t l := by
  obtain ⟨i, hi, hserves⟩ := hl
  exact ⟨i, h.advertises _ hi, hserves.keeps h⟩

end

/-- One node changes. -/
theorem keeps_update {p : Party ι} {n : Advertiser} (now : Time) (inFlight : List Letter)
    (hn : (s.nodes p).Advertises I → n.Advertises I)
    (hkey : p = .gs → (s.nodes .gs).Advertises I →
      n.node.sharedKey = (s.nodes .gs).node.sharedKey) :
    Keeps I s ⟨now, Function.update s.nodes p n, inFlight⟩ := by
  refine ⟨fun q hq => ?_, fun hgs => ?_⟩
  · by_cases hqp : q = p
    · subst hqp
      simpa using hn hq
    · simpa only [Function.update_of_ne hqp] using hq
  · by_cases hp : Party.gs = p
    · subst hp
      simpa using hkey rfl hgs
    · simp only [Function.update_of_ne hp]

theorem Sound.keeps (hE : R.Trusted E) (hs : Sound E R I s)
    (h : Does E I outOfRange R d s e t ls) : Keeps I s t := by
  cases e with
  | advance dt =>
    cases h with
    | advance hnodes => exact ⟨fun p hp => (hp.step (hnodes p)).1, fun _ => rfl⟩
  | act p a =>
    cases h with
    | act he h =>
      refine keeps_update _ _ (fun hp => (hp.step h).1) ?_
      rintro rfl hgs
      exact (h.sameKeys he (hgs.ne_start h)).sharedKey
  | deliver chance p l =>
    obtain ⟨-, n, ⟨es, hn⟩, hdelivered, rfl⟩ := hs.deliver hE h
    refine keeps_update _ _ (fun hp => (hp.step hn).1) ?_
    rintro rfl -
    cases hdelivered
    rfl

omit [Preorder β] [DecidableLT β] [DecidableEq β] [Zero β] in
/-- One node changes, and what is new in flight is honest. -/
theorem Sound.update (hs : Sound E R I s) {p : Party ι} {n : Advertiser} {inFlight : List Letter}
    (hnow : n.now = s.now) (hn : Member R I p n)
    (hletters : ∀ l ∈ inFlight, l ∈ s.inFlight ∨ s.now ≤ l.deadline ∧ Honest E R I s l)
    (hkeeps : Keeps I s ⟨s.now, Function.update s.nodes p n, inFlight⟩) :
    Sound E R I ⟨s.now, Function.update s.nodes p n, inFlight⟩ where
  clock := (Function.forall_update_iff s.nodes fun _ m => m.now = s.now).mpr
    ⟨hnow, fun q _ => hs.clock q⟩
  member := (Function.forall_update_iff s.nodes (Member R I)).mpr ⟨hn, fun q _ => hs.member q⟩
  pending l hl := by
    rcases hletters l hl with hl | ⟨hle, -⟩
    · exact hs.pending l hl
    · exact hle
  honest l hl := by
    rcases hletters l hl with hl | ⟨-, hl⟩
    · exact (hs.honest l hl).keeps hkeeps
    · exact hl.keeps hkeeps

theorem Sound.does (hE : R.Trusted E) (hI : 0 ≤ I.gsInterval) (hs : Sound E R I s)
    (h : Does E I outOfRange R d s e t ls) : Sound E R I t := by
  have hkeeps := hs.keeps hE h
  cases e with
  | advance dt =>
    cases h with
    | advance hnodes hletters =>
      refine ⟨fun p => ?_, fun p => (hs.member p).does hI (hnodes p) (by simp), hletters,
        fun l hl => (hs.honest l hl).keeps hkeeps⟩
      show (s.nodes p).now + dt = s.now + dt
      rw [hs.clock p]
  | act p a =>
    have hposts := hs.act h
    cases h with
    | act he h hcreated hls =>
      have hnow := (h.now_eq (by rintro dt rfl; exact he)).trans (hs.clock p)
      refine hs.update hnow ((hs.member p).does hI h hcreated) (fun l hl => ?_) hkeeps
      rcases List.mem_append.mp hl with hl | hl
      · exact .inl hl
      rcases hposts with ⟨-, rfl⟩ | ⟨-, i, l', -, rfl, hi, -, hrequest, hle, -⟩
      · cases hl
      · rw [List.mem_singleton.mp hl]
        exact .inr ⟨hle, i, hi, .inl hrequest⟩
  | deliver chance p l =>
    obtain ⟨-, n, ⟨es, hn⟩, hdelivered, rfl⟩ := hs.deliver hE h
    have hnow := (hn.now_eq (by simp)).trans (hs.clock p)
    refine hs.update hnow ((hs.member p).does hI hn (by simp)) (fun l' hl' => ?_) hkeeps
    rcases List.mem_append.mp hl' with hl' | hl'
    · exact .inl (List.mem_of_mem_erase hl')
    · cases hdelivered with
      | @request i _ _ hi hgs hls =>
        obtain ⟨hreply, hle, -⟩ := hls l' hl'
        exact .inr ⟨hle, i, hi, .inr ⟨hgs, hreply⟩⟩
      | reply => cases hl'

/-! ### The course of one handshake -/

theorem Does.inFlight (h : Does E I outOfRange R d s e t ls) :
    ∀ l ∈ t.inFlight, l ∈ s.inFlight ∨ l ∈ ls := by
  intro l hl
  cases h with
  | advance => exact .inl hl
  | act => exact List.mem_append.mp hl
  | deliver =>
    rcases List.mem_append.mp hl with hl | hl
    · exact .inl (List.mem_of_mem_erase hl)
    · exact .inr hl

/-- Each node takes a step of its own, or none. -/
theorem Does.node (h : Does E I outOfRange R d s e t ls) (p : Party ι) :
    t.nodes p = s.nodes p ∨ ∃ a es, Advertiser.Does E I outOfRange (s.nodes p) a (t.nodes p) es ∧
      (a = .authenticationTimer → e = .act p .authenticationTimer) := by
  cases h with
  | advance hnodes => exact .inr ⟨_, _, hnodes p, Advertiser.Event.noConfusion⟩
  | @act q a _ es _ _ h =>
    by_cases hp : p = q
    · subst hp
      refine .inr ⟨a, es, by simpa using h, ?_⟩
      rintro rfl
      rfl
    · exact .inl (Function.update_of_ne hp ..)
  | @deliver _ q _ _ es _ _ _ h =>
    by_cases hp : p = q
    · subst hp
      exact .inr ⟨_, es, by simpa using h, Advertiser.Event.noConfusion⟩
    · exact .inl (Function.update_of_ne hp ..)

/-- The node is authenticated, with the key of the ground station. -/
structure Authenticated (I : Intervals) (i : ι) (s : Enrolment ι) : Prop where
  ground : (s.nodes .gs).Advertises I
  status : (s.nodes (.an i)).node.authenticationStatus = .auth
  sharedKey : (s.nodes (.an i)).node.sharedKey = (s.nodes .gs).node.sharedKey

omit [DecidableEq ι] in
theorem Authenticated.keeps (hi : Authenticated I i s) (h : Keeps I s t)
    (hsame : (s.nodes (.an i)).node.SameKeys (t.nodes (.an i)).node) : Authenticated I i t where
  ground := h.advertises _ hi.ground
  status := hsame.authenticationStatus.trans hi.status
  sharedKey := by rw [hsame.sharedKey, hi.sharedKey, h.sharedKey hi.ground]

/-- A request of the node arrives early enough for the reply to arrive by the deadline. -/
structure Timely (E : Env β) (R : Roster ι) (d D : Time) (i : ι) (l : Letter) : Prop where
  request : IsRequest E R i l.message → l.deadline + d ≤ D
  reply : ∀ key, IsReply E R key i l.message → l.deadline ≤ D

/-- The node asks early enough, its handshake is under way, or it is authenticated. -/
structure Course (E : Env β) (R : Roster ι) (I : Intervals) (d D : Time) (i : ι)
    (s : Enrolment ι) : Prop where
  timely : ∀ l ∈ s.inFlight, Timely E R d D i l
  course : (s.nodes (.an i)).Asks I (D - 2 * d) ∨
    (s.nodes (.an i)).Silent I ∧
      ((∃ l ∈ s.inFlight, Serves E R I s i l) ∨ Authenticated I i s)

section
variable {D : Time}

/-- A node that asks goes on so until the request is on its way. -/
theorem Sound.asks_does (hs : Sound E R I s) (h : Does E I outOfRange R d s e t ls)
    (hasks : (s.nodes (.an i)).Asks I D) :
    (t.nodes (.an i)).Asks I D ∨
      (t.nodes (.an i)).Silent I ∧ ∃ l ∈ t.inFlight, Serves E R I t i l := by
  by_cases he : e = .act (.an i) .authenticationTimer
  · subst he
    obtain ⟨hne, -⟩ | ⟨-, j, l, hj, rfl, -, -, hrequest, -⟩ := hs.act h
    · exact absurd rfl hne
    · cases hj
      cases h with
      | @act _ _ n es _ _ h =>
        refine .inr ⟨?_, l, by simp, .inl hrequest⟩
        simp only [Function.update_self]
        refine ⟨(hasks.1.step h).1, ?_⟩
        rcases h.authenticates with ⟨hstart, -⟩ | ⟨-, -, hnone⟩ | ⟨hne, -⟩
        · cases hstart
        · exact hnone
        · exact absurd rfl hne
  · left
    rcases h.node (.an i) with heq | ⟨a, es, hnode, ha⟩
    · rw [heq]
      exact hasks
    · exact Advertiser.asks_step ⟨_, a, es, _⟩ hnode (fun hevent => he (ha hevent)) hasks

theorem Does.silent (h : Does E I outOfRange R d s e t ls)
    (hi : (s.nodes (.an i)).Silent I) : (t.nodes (.an i)).Silent I := by
  rcases h.node (.an i) with heq | ⟨a, es, hnode, -⟩
  · rw [heq]
    exact hi
  · exact Advertiser.silent_step ⟨_, a, es, _⟩ hnode hi

/-- What is put in flight arrives in time. -/
theorem Sound.timely (hE : R.Trusted E) (hs : Sound E R I s)
    (h : Does E I outOfRange R d s e t ls) (hi : Course E R I d D i s) :
    ∀ l ∈ ls, Timely E R d D i l := by
  intro l hl
  cases e with
  | advance dt =>
    cases h
    cases hl
  | act p a =>
    obtain ⟨-, rfl⟩ | ⟨-, j, l', -, rfl, -, hruns, hrequest, -, hle⟩ := hs.act h
    · cases hl
    rw [List.mem_singleton.mp hl]
    refine ⟨fun hrequest' => ?_, fun key hreply => absurd hreply (not_isReply_of_isRequest hrequest)⟩
    obtain rfl := isRequest_inj hrequest' hrequest
    rcases hi.course with ⟨-, expiry, -, hnow, hexpiry⟩ | ⟨hsilent, -⟩
    · rw [hs.clock] at hnow
      linarith
    · exact absurd hsilent.2 hruns
  | deliver chance p l' =>
    obtain ⟨hl', n, -, hdelivered, -⟩ := hs.deliver hE h
    cases hdelivered with
    | reply => cases hl
    | request hrequest _ _ hls =>
      obtain ⟨hreply, -, hle⟩ := hls l hl
      refine ⟨fun hrequest' => absurd hreply (not_isReply_of_isRequest hrequest'),
        fun key hreply' => ?_⟩
      obtain rfl := isReply_inj hreply' hreply
      linarith [hs.pending l' hl', (hi.timely l' hl').request hrequest]

/-- A letter of the handshake stays in flight, becomes the reply to it, or authenticates the
node. -/
theorem Sound.serves_does (hE : R.Trusted E) (hd : 0 ≤ d) (hD : D ≤ Time.seconds 5)
    (hs : Sound E R I s) (h : Does E I outOfRange R d s e t ls) {l : Letter} (hl : l ∈ s.inFlight)
    (hserves : Serves E R I s i l) (htimely : Timely E R d D i l) :
    (∃ r ∈ t.inFlight, Serves E R I t i r) ∨ Authenticated I i t := by
  have hkeeps := hs.keeps hE h
  have hpending := hs.pending l hl
  cases e with
  | advance dt =>
    cases h
    exact .inl ⟨l, hl, hserves.keeps hkeeps⟩
  | act p a =>
    cases h
    exact .inl ⟨l, List.mem_append_left _ hl, hserves.keeps hkeeps⟩
  | deliver chance p l' =>
    obtain ⟨-, n, -, hdelivered, rfl⟩ := hs.deliver hE h
    by_cases hne : l = l'
    · subst hne
      cases hdelivered with
      | @request j _ hrequest _ hgs hls hanswer =>
        rcases hserves with hrequest' | ⟨-, hreply⟩
        · obtain rfl := isRequest_inj hrequest hrequest'
          have hnow : s.now ≤ Time.seconds 5 := by linarith [htimely.request hrequest]
          obtain ⟨r, hr⟩ := List.exists_mem_of_ne_nil _ (hanswer hnow)
          refine .inl ⟨r, List.mem_append_right _ hr, Serves.keeps ?_ hkeeps⟩
          exact .inr ⟨hgs, (hls r hr).1⟩
        · exact absurd hreply (not_isReply_of_isRequest hrequest)
      | @reply j _ hgs hreply hauth =>
        rcases hserves with hrequest | ⟨-, hreply'⟩
        · exact absurd hreply (not_isReply_of_isRequest hrequest)
        · obtain rfl := isReply_inj hreply' hreply
          obtain ⟨hstatus, hkey⟩ := hauth (by linarith [htimely.reply _ hreply])
          refine .inr ⟨hkeeps.advertises _ hgs, ?_, ?_⟩
          · simpa using hstatus
          · rw [hkeeps.sharedKey hgs]
            simpa using hkey
    · exact .inl ⟨l, List.mem_append_left _ ((List.mem_erase_of_ne hne).mpr hl),
        hserves.keeps hkeeps⟩

/-- A node that is authenticated stays it: the replies to it come in time. -/
theorem Sound.authenticated_does (hE : R.Trusted E) (hD : D ≤ Time.seconds 5)
    (hs : Sound E R I s) (h : Does E I outOfRange R d s e t ls)
    (hsilent : (s.nodes (.an i)).Silent I) (hi : Authenticated I i s)
    (htimely : ∀ l ∈ s.inFlight, Timely E R d D i l) : Authenticated I i t := by
  have hkeeps := hs.keeps hE h
  cases e with
  | advance dt =>
    cases h
    exact hi.keeps hkeeps ⟨rfl, rfl⟩
  | act p a =>
    cases h with
    | act he h =>
      refine hi.keeps hkeeps ?_
      by_cases hp : Party.an i = p
      · subst hp
        simpa using h.sameKeys he (hsilent.1.ne_start h)
      · simp only [Function.update_of_ne hp]
        exact ⟨rfl, rfl⟩
  | deliver chance p l =>
    obtain ⟨hl, n, -, hdelivered, rfl⟩ := hs.deliver hE h
    cases hdelivered with
    | request => exact hi.keeps hkeeps (by simp only [Function.update_eq_self]; exact ⟨rfl, rfl⟩)
    | @reply j _ hgs hreply hauth =>
      by_cases hj : i = j
      · subst hj
        have hle := (htimely l hl).reply _ hreply
        obtain ⟨hstatus, hkey⟩ := hauth ((hs.pending l hl).trans (hle.trans hD))
        refine ⟨hkeeps.advertises _ hgs, ?_, ?_⟩
        · simpa using hstatus
        · rw [hkeeps.sharedKey hgs]
          simpa using hkey
      · have hne : Party.an i ≠ Party.an j := fun h => hj (Party.an.inj h)
        refine hi.keeps hkeeps ?_
        simp only [Function.update_of_ne hne]
        exact ⟨rfl, rfl⟩

theorem Course.does (hE : R.Trusted E) (hd : 0 ≤ d) (hD : D ≤ Time.seconds 5)
    (hs : Sound E R I s) (h : Does E I outOfRange R d s e t ls) (hi : Course E R I d D i s) :
    Course E R I d D i t where
  timely l hl := by
    rcases h.inFlight l hl with hl | hl
    · exact hi.timely l hl
    · exact hs.timely hE h hi l hl
  course := by
    rcases hi.course with hasks | ⟨hsilent, hcourse⟩
    · rcases hs.asks_does h hasks with hasks | ⟨hsilent, hserves⟩
      · exact .inl hasks
      · exact .inr ⟨hsilent, .inl hserves⟩
    · refine .inr ⟨h.silent hsilent, ?_⟩
      rcases hcourse with ⟨l, hl, hserves⟩ | hauth
      · exact hs.serves_does hE hd hD h hl hserves (hi.timely l hl)
      · exact .inr (hs.authenticated_does hE hD h hsilent hauth hi.timely)

/-- Start opens the course. -/
theorem Sound.course_of_start (hI : 0 ≤ I.gsInterval) (hs : Sound E R I s)
    (h : Does E I outOfRange R d s (.act (.an i) .start) t ls)
    (hD : D = s.now + I.authenticationInterval + 2 * d) : Course E R I d D i t := by
  have hmember := hs.member (.an i)
  cases h with
  | @act _ _ n es _ he h hcreated hls =>
    have hnil : ls = [] := h.posts_nil he (by simp) hls
    have hnew : (s.nodes (.an i)).New := by
      rcases hmember.phase with ⟨hnew, -⟩ | ⟨hadvertises, -⟩
      · exact hnew
      · exact absurd rfl (hadvertises.ne_start h)
    have hairborne : (s.nodes (.an i)).node.isGroundStation = false := by
      by_contra hgs
      cases hmember.role.mp (eq_true_of_ne_false hgs)
    have hasks := hnew.asks_start hI hairborne hmember.secure h
    rw [hs.clock] at hasks
    refine ⟨fun l hl => ?_, .inl ?_⟩
    · -- no letter is about a node that was not started
      rw [hnil, List.append_nil] at hl
      obtain ⟨j, hj, hserves⟩ := hs.honest l hl
      have hne : i ≠ j := by
        rintro rfl
        exact hnew.not_advertises hj
      rcases hserves with hrequest | ⟨-, hreply⟩
      · exact ⟨fun hrequest' => absurd (isRequest_inj hrequest' hrequest) hne,
          fun _ hreply => absurd hreply (not_isReply_of_isRequest hrequest)⟩
      · exact ⟨fun hrequest => absurd hreply (not_isReply_of_isRequest hrequest),
          fun _ hreply' => absurd (isReply_inj hreply' hreply) hne⟩
    · have hdeadline : D - 2 * d = s.now + I.authenticationInterval := by linarith
      rw [hdeadline]
      simpa using hasks

omit [DecidableEq ι] [Preorder β] [DecidableLT β] [DecidableEq β] [Zero β] in
/-- When the deadline is over, the node is authenticated. -/
theorem Course.authenticated (hd : 0 ≤ d) (hs : Sound E R I s) (hi : Course E R I d D i s)
    (hlate : D < s.now) : Authenticated I i s := by
  rcases hi.course with ⟨-, expiry, -, hnow, hle⟩ | ⟨-, ⟨l, hl, hserves⟩ | hauth⟩
  · rw [hs.clock] at hnow
    linarith
  · have hpending := hs.pending l hl
    rcases hserves with hrequest | ⟨-, hreply⟩
    · linarith [(hi.timely l hl).request hrequest]
    · linarith [(hi.timely l hl).reply _ hreply]
  · exact hauth

end

variable {s₀ : Enrolment ι} {tr : List (Transition (Enrolment ι) (Event ι) (List Letter))}

/-- An airborne node that starts early enough for its request and the reply to arrive within the
first five seconds is authenticated with the key of the ground station from then on, whatever else
happens to the nodes. -/
theorem authenticated_in_time (hE : R.Trusted E) (hI : 0 ≤ I.gsInterval) (hd : 0 ≤ d)
    (hs₀ : Initial R s₀) (h : Run (Step E I outOfRange R d) s₀ tr u)
    {x : Transition (Enrolment ι) (Event ι) (List Letter)} (hx : x ∈ tr)
    (hstart : x.event = .act (.an i) .start)
    (hearly : x.pre.now + I.authenticationInterval + 2 * d ≤ Time.seconds 5)
    (hlate : x.pre.now + I.authenticationInterval + 2 * d < u.now) :
    (u.nodes (.an i)).node.authenticationStatus = .auth ∧
      (u.nodes (.an i)).node.sharedKey = (u.nodes .gs).node.sharedKey := by
  obtain ⟨hu, hsound⟩ := h.invariant (fun _ hy hpre => Sound.does hE hI hpre hy) hs₀.sound
  have hstep := h.step_of_mem x hx
  rw [Step, hstart] at hstep
  have hcourse := (hsound x hx).course_of_start hI hstep rfl
  have hend : Sound E R I u ∧ Course E R I d _ i u :=
    h.invariant_of_mem (I := fun s => Sound E R I s ∧ Course E R I d _ i s)
      (fun y hy hpre => ⟨hpre.1.does hE hI hy, hpre.2.does hE hd hearly hpre.1 hy⟩) x hx
      ⟨(hsound x hx).does hE hI hstep, hcourse⟩
  have hauth := hend.2.authenticated hd hu hlate
  exact ⟨hauth.status, hauth.sharedKey⟩

end

/-! ### Two handshakes in time -/

/-- A message of the key exchange takes a millisecond at most. -/
def delay : Time := Time.milliSeconds 1

def unstarted (k : UInt8) : Advertiser := ⟨0, { Sample.node k with securityState := true }, {}, {}, {}⟩

/-- The ground station after Start, and the time its timer expires at. -/
def ground (now gs : Time) : Advertiser := ⟨now, Sample.secureNode 0, {}, ⟨true, some gs⟩, {}⟩

/-- Nodes 1 and 2 after Start, with the times their timers expire at. -/
def airborne (now : Time) (n : Bool → Node) (hello : Time) (auth : Option Time) (i : Bool) :
    Advertiser := ⟨now, n i, ⟨true, some hello⟩, {}, ⟨true, auth⟩⟩

def unauthenticated (i : Bool) : Node := Sample.secureNode (Handshakes.number (.an i))

def trio (now : Time) (gs : Advertiser) (an : Bool → Advertiser) (inFlight : List Letter) :
    Enrolment Bool where
  now := now
  nodes
    | .gs => gs
    | .an i => an i
  inFlight := inFlight

/-- The three nodes before Start. -/
def grounded : Enrolment Bool :=
  trio 0 (unstarted 0) (fun i => unstarted (Handshakes.number (.an i))) []

theorem grounded_initial : Initial Handshakes.roster grounded where
  inFlight := rfl
  now p := by cases p <;> rfl
  new p := by cases p <;> exact ⟨rfl, rfl, rfl⟩
  secure p := by cases p <;> rfl
  role p := by obtain _ | _ | _ := p <;> rfl
  nodeId p := by cases p <;> rfl
  authAddress p := by obtain _ | _ | _ := p <;> decide
  socket p := by
    obtain _ | i := p
    · exact ⟨(2, Sample.interface 0 2), rfl⟩
    · exact ⟨(2, Sample.interface (Handshakes.number (.an i)) 2), rfl⟩
  credentials p := by cases p <;> rfl

/-- A step of the three nodes, with the intervals as they are by default. -/
abbrev TrioDoes (s : Enrolment Bool) (e : Event Bool) (t : Enrolment Bool)
    (ls : List Letter) : Prop :=
  Does Handshakes.env {} (fun _ => 0) Handshakes.roster delay s e t ls

abbrev TrioStep := Step (ι := Bool) Handshakes.env {} (fun _ => 0) Handshakes.roster delay

section
variable {now : Time} {gs gs' : Advertiser} {an f g : Bool → Advertiser} {ls ls' : List Letter}

theorem update_trio_gs :
    ({ trio now gs an ls with
      nodes := Function.update (trio now gs an ls).nodes .gs gs', inFlight := ls' } :
        Enrolment Bool) = trio now gs' an ls' := by
  refine congrArg (Enrolment.mk now · ls') (funext fun p => ?_)
  cases p <;> simp [trio]

theorem update_trio_an (i : Bool) (a : Advertiser) :
    ({ trio now gs an ls with
      nodes := Function.update (trio now gs an ls).nodes (.an i) a, inFlight := ls' } :
        Enrolment Bool) = trio now gs (Function.update an i a) ls' := by
  refine congrArg (Enrolment.mk now · ls') (funext fun p => ?_)
  obtain _ | j := p
  · simp [trio]
  · by_cases hj : j = i
    · subst hj
      simp [trio]
    · simp [trio, hj]

theorem posts_nil (n : Node) : Posts delay now n [] [] :=
  ⟨⟨Sample.chance, rfl⟩, fun l hl => by cases hl⟩

/-- A message of the key exchange becomes a letter. -/
theorem posts_singleton {n : Node} {es : List Effect} {m : Message}
    (h : Effect.posted Sample.chance n es = [m]) (hauth : m.datagram.IsAuthentication) :
    Posts delay now n es [⟨m, now + delay⟩] := by
  refine ⟨⟨Sample.chance, ?_⟩, fun l hl => ?_⟩
  · rw [h, List.map_singleton, List.filter_singleton, decide_eq_true hauth, cond_true]
  · rw [List.mem_singleton.mp hl]
    exact ⟨le_add_of_nonneg_right (by decide), le_rfl⟩

variable (now gs ls) in
/-- The same happens to nodes 1 and 2, one after the other. -/
theorem both_act {e : Advertiser.Event} {es : Bool → List Effect} {l : Bool → List Letter}
    (he : IsLocal e)
    (h : ∀ i, Advertiser.Does Handshakes.env {} (fun _ => 0) (f i) e (g i) (es i))
    (hcreated : e = .start → ∀ i, (g i).node.credentials =
      some (Handshakes.roster.credentials (.an i)))
    (hls : ∀ i, Posts delay now (g i).node (es i) (l i)) :
    ∃ tr, Run TrioStep (trio now gs f ls) tr (trio now gs g (ls ++ l false ++ l true)) ∧
      ∀ i, ∃ x ∈ tr, x.event = .act (.an i) e ∧ x.pre.now = now := by
  have hfirst : TrioDoes (trio now gs f ls) (.act (.an false) e)
      (trio now gs (Function.update f false (g false)) (ls ++ l false)) (l false) := by
    have hdoes : TrioDoes _ _ _ _ := .act (s := trio now gs f ls) (p := .an false) he (h false)
      (fun hstart => hcreated hstart false) (hls false)
    rwa [update_trio_an] at hdoes
  have hsecond : TrioDoes (trio now gs (Function.update f false (g false)) (ls ++ l false))
      (.act (.an true) e) (trio now gs g (ls ++ l false ++ l true)) (l true) := by
    have hdoes : TrioDoes _ _ _ _ :=
      .act (s := trio now gs (Function.update f false (g false)) (ls ++ l false)) (p := .an true) he
        (h true) (fun hstart => hcreated hstart true) (hls true)
    have hboth : Function.update (Function.update f false (g false)) true (g true) = g := by
      funext i
      cases i <;> rfl
    rwa [update_trio_an, hboth] at hdoes
  refine ⟨_, .cons (x := ⟨_, _, _, _⟩) rfl hfirst (.single ⟨_, _, _, _⟩ hsecond), fun i => ?_⟩
  cases i with
  | false => exact ⟨_, List.mem_cons_self, rfl, rfl⟩
  | true => exact ⟨_, List.mem_cons_of_mem _ List.mem_cons_self, rfl, rfl⟩

end

/-! ### Up to the requests -/

section
variable {now dt gsAt hello : Time} {auth : Option Time} {n : Bool → Node}
  {an : Bool → Advertiser} {ls : List Letter}

variable (now dt gsAt hello auth ls) in
/-- Time passes until a timer expires or a letter has to arrive. -/
theorem advance_trio (hdt : 0 ≤ dt) (hidle : ∀ i, (n i).checkQueueTimer = none)
    (hgs : now + dt ≤ gsAt) (hhello : now + dt ≤ hello) (hauth : ∀ t ∈ auth, now + dt ≤ t)
    (hls : ∀ l ∈ ls, now + dt ≤ l.deadline) :
    TrioDoes (trio now (ground now gsAt) (airborne now n hello auth) ls) (.advance dt)
      (trio (now + dt) (ground (now + dt) gsAt) (airborne (now + dt) n hello auth) ls) [] := by
  have hnone : ∀ n : Node, n.checkQueueTimer = none →
      ∀ t, n.checkQueueTimer = some t → now + dt ≤ t := fun n hn t ht => by
    rw [hn] at ht
    cases ht
  have hparty : ∀ p, Advertiser.Does Handshakes.env {} (fun _ => 0)
      ((trio now (ground now gsAt) (airborne now n hello auth) ls).nodes p) (.advance dt)
      { (trio now (ground now gsAt) (airborne now n hello auth) ls).nodes p with
        now := ((trio now (ground now gsAt) (airborne now n hello auth) ls).nodes p).now + dt } [] := by
    intro p
    cases p with
    | gs =>
      refine .advance (.advance hdt (hnone _ rfl)) fun timer htimer t ht => ?_
      have htimers : timer = {} ∨ timer = ⟨true, some gsAt⟩ := by
        simpa [trio, ground, or_comm, or_left_comm] using htimer
      rcases htimers with rfl | rfl <;> cases ht
      exact hgs
    | an i =>
      refine .advance (.advance hdt (hnone _ (hidle i))) fun timer htimer t ht => ?_
      have htimers : timer = ⟨true, some hello⟩ ∨ timer = {} ∨ timer = ⟨true, auth⟩ := by
        simpa [trio, airborne] using htimer
      rcases htimers with rfl | rfl | rfl
      · cases ht
        exact hhello
      · cases ht
      · exact hauth t ht
  have hdoes : TrioDoes _ (.advance dt) _ [] :=
    .advance (s := trio now (ground now gsAt) (airborne now n hello auth) ls) hparty hls
  have hnodes : (fun p => { (trio now (ground now gsAt) (airborne now n hello auth) ls).nodes p with
      now := ((trio now (ground now gsAt) (airborne now n hello auth) ls).nodes p).now + dt }) =
      (trio (now + dt) (ground (now + dt) gsAt) (airborne (now + dt) n hello auth) ls).nodes := by
    funext p
    cases p <;> rfl
  rwa [hnodes] at hdoes

theorem start_ground : TrioDoes grounded (.act .gs .start) (trio 0 (ground 0 (Time.milliSeconds 500))
    (fun i => unstarted (Handshakes.number (.an i))) []) [] := by
  have hok : (unstarted 0).start (Sample.credentials 0) (Sample.fill _ [1])
      (Time.milliSeconds 500) 0 0 = .ok (ground 0 (Time.milliSeconds 500)) := rfl
  have hdoes : TrioDoes _ _ _ _ := .act (s := grounded) (p := .gs)
    (e := .start) trivial (.start (by decide) (by decide) (by decide) hok) (fun _ => rfl) (posts_nil _)
  rwa [grounded, update_trio_gs] at hdoes

/-- The timers of the authentication expire as late as they may. -/
theorem start_airborne (i : Bool) : Advertiser.Does Handshakes.env {} (fun _ => 0)
    (unstarted (Handshakes.number (.an i))) .start
    (airborne 0 unauthenticated (Time.milliSeconds 500) (some (Time.seconds 3)) i) [] := by
  have hok : (unstarted (Handshakes.number (.an i))).start
      (Sample.credentials (Handshakes.number (.an i))) (Sample.fill _ [1]) (Time.milliSeconds 500) 0
      (Time.seconds 3) =
      .ok (airborne 0 unauthenticated (Time.milliSeconds 500) (some (Time.seconds 3)) i) := by
    cases i <;> rfl
  exact .start (by decide) (by decide) (by decide) hok

/-- A HELLO message is not sent before the authentication. -/
theorem hello_airborne (auth : Option Time) (i : Bool) : Advertiser.Does Handshakes.env {} (fun _ => 0)
    (airborne now unauthenticated now auth i) .helloTimer
    (airborne now unauthenticated (now + Time.milliSeconds 1500) auth i) [] := by
  have hok : Advertiser.helloTimerExpire {} (fun _ => 0) (Time.milliSeconds 500)
      (airborne now unauthenticated now auth i) =
      .ok (airborne now unauthenticated (now + Time.milliSeconds 1500) auth i, []) := by
    cases i <;> rfl
  exact .helloTimer rfl (by decide) hok

theorem gsTimer_ground : TrioDoes (trio now (ground now now) an ls) (.act .gs .gsTimer)
    (trio now (ground now (now + Time.seconds 5)) an ls) [] := by
  have hok : Advertiser.gsTimerExpire {} (fun _ => 0)
      ⟨fun _ => ⟨0, 0, 0⟩, fun _ => ⟨0, 0, 0⟩, fun _ => ⟨0, 0, 0⟩, fun _ => ⟨0, 0, 0⟩⟩ false [] 0
      (ground now now) = .ok (ground now (now + Time.seconds 5), []) := rfl
  have hdoes : TrioDoes _ _ _ _ := .act (s := trio now (ground now now) an ls) (p := .gs)
    (e := .gsTimer) trivial (.gsTimer rfl (by decide) hok) (by simp) (posts_nil _)
  rwa [update_trio_gs, List.append_nil] at hdoes

end

/-- The nodes have been started at 0 and have not asked yet. -/
def waitingAt (now gs hello : Time) : Enrolment Bool :=
  trio now (ground now gs) (airborne now unauthenticated hello (some (Time.seconds 3))) []

theorem advance_waitingAt {now gs hello : Time} (dt : Time) (hdt : 0 ≤ dt) (hgs : now + dt ≤ gs)
    (hhello : now + dt ≤ hello) (hauth : now + dt ≤ Time.seconds 3) :
    TrioDoes (waitingAt now gs hello) (.advance dt) (waitingAt (now + dt) gs hello) [] :=
  advance_trio _ _ _ _ _ _ hdt (fun i => by cases i <;> rfl) hgs hhello
    (fun t ht => by cases ht; exact hauth) (fun l hl => by cases hl)

theorem hello_waitingAt (now gs : Time) : ∃ tr, Run TrioStep (waitingAt now gs now) tr
    (waitingAt now gs (now + Time.milliSeconds 1500)) := by
  obtain ⟨tr, hrun, -⟩ := both_act now (ground now gs) [] (e := .helloTimer) trivial
    (hello_airborne (some (Time.seconds 3))) (by simp) (fun _ => posts_nil _)
  exact ⟨tr, hrun⟩

/-- For three seconds the timers of the messages expire and are set again. -/
theorem exists_waiting_run : ∃ tr, Run TrioStep grounded tr
    (waitingAt (Time.seconds 3) (Time.milliSeconds 5500) (Time.milliSeconds 3500)) ∧
      ∀ i, ∃ x ∈ tr, x.event = .act (.an i) .start ∧ x.pre.now = 0 := by
  obtain ⟨tr₁, hstart, hstarts⟩ := both_act 0 (ground 0 (Time.milliSeconds 500)) [] (e := .start)
    trivial start_airborne (fun _ i => by cases i <;> rfl) (fun _ => posts_nil _)
  have hwait₁ : TrioDoes (waitingAt 0 (Time.milliSeconds 500) (Time.milliSeconds 500)) _
      (waitingAt (Time.milliSeconds 500) (Time.milliSeconds 500) (Time.milliSeconds 500)) [] :=
    advance_waitingAt (Time.milliSeconds 500) (by decide) (by decide) (by decide) (by decide)
  have hgs : TrioDoes _ _ (waitingAt (Time.milliSeconds 500) (Time.milliSeconds 5500)
      (Time.milliSeconds 500)) [] := gsTimer_ground
  obtain ⟨tr₂, hhello₁⟩ := hello_waitingAt (Time.milliSeconds 500) (Time.milliSeconds 5500)
  have hwait₂ : TrioDoes (waitingAt (Time.milliSeconds 500) (Time.milliSeconds 5500)
      (Time.seconds 2)) _ (waitingAt (Time.seconds 2) (Time.milliSeconds 5500) (Time.seconds 2)) [] :=
    advance_waitingAt (Time.milliSeconds 1500) (by decide) (by decide) (by decide) (by decide)
  obtain ⟨tr₃, hhello₂⟩ := hello_waitingAt (Time.seconds 2) (Time.milliSeconds 5500)
  have hwait₃ : TrioDoes (waitingAt (Time.seconds 2) (Time.milliSeconds 5500)
      (Time.milliSeconds 3500)) _ (waitingAt (Time.seconds 3) (Time.milliSeconds 5500)
        (Time.milliSeconds 3500)) [] :=
    advance_waitingAt (Time.seconds 1) (by decide) (by decide) (by decide) (by decide)
  have hrest : Run TrioStep _ _ _ := hhello₁.append (.cons (x := ⟨_, _, _, _⟩) rfl hwait₂
    (hhello₂.append (.single ⟨_, _, _, _⟩ hwait₃)))
  refine ⟨_, .cons (x := ⟨_, _, _, _⟩) rfl start_ground (hstart.append
    (.cons (x := ⟨_, _, _, _⟩) rfl hwait₁ (.cons (x := ⟨_, _, _, _⟩) rfl hgs hrest))), fun i => ?_⟩
  obtain ⟨x, hx, hevent, hnow⟩ := hstarts i
  exact ⟨x, List.mem_cons_of_mem _ (List.mem_append_left _ hx), hevent, hnow⟩

/-! ### The requests and the replies -/

/-- Both nodes have asked. -/
def askedAt (now : Time) (n : Bool → Node) (inFlight : List Letter) : Enrolment Bool :=
  trio now (ground now (Time.milliSeconds 5500)) (airborne now n (Time.milliSeconds 3500) none)
    inFlight

/-- The node with the key of the ground station. -/
def withKey (n : Node) : Node :=
  { n with sharedKey := (Sample.secureNode 0).sharedKey, authenticationStatus := .auth }

section
variable {now : Time} {i : Bool} (n : Bool → Node) (ls : List Letter)

theorem advance_askedAt {dt : Time} (hdt : 0 ≤ dt) (hnow : now + dt ≤ Time.milliSeconds 3500)
    (hidle : ∀ i, (n i).checkQueueTimer = none) (hls : ∀ l ∈ ls, now + dt ≤ l.deadline) :
    TrioDoes (askedAt now n ls) (.advance dt) (askedAt (now + dt) n ls) [] :=
  advance_trio _ _ _ _ _ _ hdt hidle
    (hnow.trans (show Time.milliSeconds 3500 ≤ Time.milliSeconds 5500 by decide)) hnow (by simp) hls

/-- A node asks when its timer expires. -/
theorem request_airborne (now hello : Time) (i : Bool) : ∃ es m,
    Handshakes.IsRequest Handshakes.env Handshakes.roster i m ∧
      Effect.posted Sample.chance (unauthenticated i) es = [m] ∧
      Advertiser.Does Handshakes.env {} (fun _ => 0) (airborne now unauthenticated hello (some now) i)
        .authenticationTimer (airborne now unauthenticated hello none i) es := by
  have hsend : ∃ es, (unauthenticated i).sendAuthenticationRequestPacket Handshakes.env now
      Sample.chance = .ok es := by
    rw [Node.sendAuthenticationRequestPacket, unauthenticated, Sample.credentials_secureNode]
    exact ⟨_, rfl⟩
  obtain ⟨es, hsend⟩ := hsend
  obtain ⟨m, hposted, hm⟩ := Handshakes.posted_request (Handshakes.has_first (.an i)) hsend
  have hexpire : (airborne now unauthenticated hello (some now) i).authenticationTimerExpire
      Handshakes.env Sample.chance = .ok (airborne now unauthenticated hello none i, es) := by
    show (unauthenticated i).sendAuthenticationRequestPacket Handshakes.env now Sample.chance >>= _ = _
    rw [hsend]
    rfl
  exact ⟨es, m, hm, hposted, .authenticationTimer rfl hexpire⟩

/-- The ground station answers the first letter. -/
theorem deliver_ground {l : Letter} (hnow : now ≤ Time.seconds 5)
    (hm : Handshakes.IsRequest Handshakes.env Handshakes.roster i l.message) :
    ∃ r, Handshakes.IsReply Handshakes.env Handshakes.roster (Sample.secureNode 0).sharedKey i r ∧
      TrioDoes (askedAt now n (l :: ls)) (.deliver Sample.chance .gs l)
        (askedAt now n (ls ++ [⟨r, now + delay⟩])) [⟨r, now + delay⟩] := by
  have hground : Handshakes.roster.Has .gs (Sample.secureNode 0) := Handshakes.has_first .gs
  obtain ⟨es, r, hrecv, hposted, hr⟩ :=
    Handshakes.recv_request Handshakes.roster_trusted hground hnow Sample.chance hm
  have hanswer : TrioDoes _ _ _ _ :=
    .deliver (s := askedAt now n (l :: ls)) (p := .gs) List.mem_cons_self
      (hground.authAddress.trans hm.2.1.symm) (.call trivial (.recv hrecv))
      (posts_singleton hposted (.inr (messageType_of_isReply hr)))
  rw [askedAt, update_trio_gs, show (trio now (ground now (Time.milliSeconds 5500)) (airborne now n
    (Time.milliSeconds 3500) none) (l :: ls)).inFlight = l :: ls from rfl,
    List.erase_cons_head] at hanswer
  exact ⟨r, hr, hanswer⟩

/-- A reply gives the node the key. -/
theorem deliver_airborne {l : Letter} (hnow : now ≤ Time.seconds 5) (hl : l ∈ ls)
    (hn : Handshakes.roster.Has (.an i) (n i)) (hr : Handshakes.IsReply Handshakes.env
      Handshakes.roster (Sample.secureNode 0).sharedKey i l.message) :
    TrioDoes (askedAt now n ls) (.deliver Sample.chance (.an i) l)
      (askedAt now (Function.update n i (withKey (n i))) (ls.erase l)) [] := by
  have hrecv := Handshakes.recv_reply Handshakes.roster_trusted hn hnow Sample.chance hr
  have hgets : TrioDoes _ _ _ _ :=
    .deliver (s := askedAt now n ls) (p := .an i) hl (hn.authAddress.trans hr.2.1.symm)
      (.call trivial (.recv hrecv)) (posts_nil _)
  have hnodes : Function.update (airborne now n (Time.milliSeconds 3500) none) i
      { airborne now n (Time.milliSeconds 3500) none i with node := withKey (n i) } =
      airborne now (Function.update n i (withKey (n i))) (Time.milliSeconds 3500) none := by
    funext j
    by_cases hj : j = i
    · subst hj
      simp [airborne]
    · simp [airborne, hj]
  rw [askedAt, update_trio_an, List.append_nil] at hgets
  rw [askedAt, askedAt, ← hnodes]
  exact hgets

end

/-- Both nodes ask before either has got a reply, and get their replies in the other order. -/
theorem exists_exchange_run : ∃ tr u, Run TrioStep
    (waitingAt (Time.seconds 3) (Time.milliSeconds 5500) (Time.milliSeconds 3500)) tr u ∧
      u.now = Time.seconds 3 + delay + delay + 1 := by
  choose es m hm hposted hasks using request_airborne (Time.seconds 3) (Time.milliSeconds 3500)
  let l (i : Bool) : Letter := ⟨m i, Time.seconds 3 + delay⟩
  obtain ⟨tr, hask, -⟩ := both_act (Time.seconds 3) (ground (Time.seconds 3) (Time.milliSeconds 5500))
    [] (e := .authenticationTimer) trivial hasks (by simp)
    (fun i => posts_singleton (hposted i) (.inl (messageType_of_isRequest (hm i))))
  have hdelay : 0 ≤ delay := by decide
  have hidle : ∀ i, (unauthenticated i).checkQueueTimer = none := fun i => by cases i <;> rfl
  have hwait : TrioDoes (askedAt (Time.seconds 3) unauthenticated [l false, l true]) _ _ _ :=
    advance_askedAt _ _ hdelay (by decide) hidle (by simp [l])
  have hnow : Time.seconds 3 + delay ≤ Time.seconds 5 := by decide
  obtain ⟨r, hr, hanswer⟩ := deliver_ground unauthenticated [l true] (l := l false) hnow (hm false)
  obtain ⟨r', hr', hanswer'⟩ := deliver_ground unauthenticated
    [⟨r, Time.seconds 3 + delay + delay⟩] (l := l true) hnow (hm true)
  let k : Letter := ⟨r, Time.seconds 3 + delay + delay⟩
  let k' : Letter := ⟨r', Time.seconds 3 + delay + delay⟩
  have hwait' : TrioDoes (askedAt (Time.seconds 3 + delay) unauthenticated [k, k']) _ _ _ :=
    advance_askedAt _ _ hdelay (by decide) hidle (by simp [k, k'])
  have hnow' : Time.seconds 3 + delay + delay ≤ Time.seconds 5 := by decide
  have hauth' := deliver_airborne unauthenticated [k, k'] (l := k') hnow'
    (List.mem_cons_of_mem k List.mem_cons_self) (Handshakes.has_first (.an true)) hr'
  have hne : k ≠ k' := by
    intro heq
    have hdestination := hr.2.1.symm.trans ((congrArg (·.message.destination) heq).trans hr'.2.1)
    cases Handshakes.roster.address_injective hdestination
  rw [show [k, k'].erase k' = [k] by simp [List.erase_cons_tail, hne]] at hauth'
  let n : Bool → Node := Function.update unauthenticated true (withKey (unauthenticated true))
  let n' : Bool → Node := Function.update n false (withKey (n false))
  have hother : Handshakes.roster.Has (.an false) (n false) := Handshakes.has_first (.an false)
  have hauth := deliver_airborne n [k] (l := k) hnow' List.mem_cons_self hother hr
  rw [List.erase_cons_head] at hauth
  have hmoment : TrioDoes (askedAt (Time.seconds 3 + delay + delay) n' []) (.advance 1) _ _ :=
    advance_askedAt n' [] (by decide) (by decide) (fun i => by cases i <;> rfl) (by simp)
  exact ⟨_, _, hask.append (.cons (x := ⟨_, _, _, _⟩) rfl hwait (.cons (x := ⟨_, _, _, _⟩) rfl hanswer
    (.cons (x := ⟨_, _, _, _⟩) rfl hanswer' (.cons (x := ⟨_, _, _, _⟩) rfl hwait'
      (.cons (x := ⟨_, _, _, _⟩) rfl hauth' (.cons (x := ⟨_, _, _, _⟩) rfl hauth
        (.single ⟨_, _, _, _⟩ hmoment))))))), rfl⟩

/-- Both nodes are authenticated. -/
theorem authenticated_in_time_trio : ∃ tr u, Run TrioStep grounded tr u ∧
    ∀ i, (u.nodes (.an i)).node.authenticationStatus = .auth ∧
      (u.nodes (.an i)).node.sharedKey = (u.nodes .gs).node.sharedKey := by
  obtain ⟨tr, hrun, hstarts⟩ := exists_waiting_run
  obtain ⟨tr', u, hrun', hu⟩ := exists_exchange_run
  refine ⟨_, u, hrun.append hrun', fun i => ?_⟩
  obtain ⟨x, hx, hstart, hnow⟩ := hstarts i
  refine authenticated_in_time Handshakes.roster_trusted (by decide) (by decide) grounded_initial
    (hrun.append hrun') (List.mem_append_left _ hx) hstart ?_ ?_
  · rw [hnow]
    decide
  · rw [hnow, hu]
    decide

end Enrolment

end SAeroRP
