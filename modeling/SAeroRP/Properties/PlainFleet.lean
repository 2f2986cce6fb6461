import SAeroRP.Properties.AdvertisedMotion
import SAeroRP.Properties.Advertisements
import SAeroRP.System.Fleet

/-! What the tables of a fleet in plain mode hold. -/

namespace SAeroRP.Fleet

open Library Node

variable {ι : Type} {β : Type} [Preorder β] [DecidableLT β] [DecidableEq β] [Zero β]
  {E : Env β} {I : Intervals} {outOfRange : ℚ → UInt32} {M : Medium ι}
  {s₀ s t u : Fleet ι} {T : Transition (Fleet ι) (Event ι) (List (Flight ι)) → Prop}
  {x : Transition (Fleet ι) (Event ι) (List (Flight ι))}
  {tr : List (Transition (Fleet ι) (Event ι) (List (Flight ι)))}

/-! ### Where the messages come from -/

/-- The transition puts out the message, a HELLO of node `j`. -/
structure Greets (s₀ : Fleet ι) (outOfRange : ℚ → UInt32)
    (x : Transition (Fleet ι) (Event ι) (List (Flight ι))) (j : ι) (m : Flight ι) : Prop where
  event : x.event = .act j .helloTimer
  out : m ∈ x.out
  airborne : (s₀.nodes j).node.isGroundStation = false
  address : (s₀.nodes j).node.HasAddress m.sender
  bytes : m.bytes = (x.pre.nodes j).node.helloMessage outOfRange

/-- The transition puts out the message, a GSGEOLOCATION of node `j`. -/
structure Locates (s₀ : Fleet ι) (x : Transition (Fleet ι) (Event ι) (List (Flight ι))) (j : ι)
    (m : Flight ι) (hdr : GSGeoLocationHeader) : Prop where
  event : x.event = .act j .gsTimer
  out : m ∈ x.out
  ground : (s₀.nodes j).node.isGroundStation = true
  address : (s₀.nodes j).node.HasAddress m.sender
  bytes : m.bytes = hdr.message

/-- The message was sent by one of the transitions, not later than `now`. -/
def Origin (M : Medium ι) (outOfRange : ℚ → UInt32) (s₀ : Fleet ι)
    (T : Transition (Fleet ι) (Event ι) (List (Flight ι)) → Prop) (now : Time) (m : Flight ι) :
    Prop :=
  ∃ x j, T x ∧ x.pre.now ≤ now ∧ m.deadline ≤ x.pre.now + M.delay ∧
    (Greets s₀ outOfRange x j m ∨ ∃ hdr, Locates s₀ x j m hdr)

/-- What holds of a fleet after transitions that are all in `T`. -/
structure Sound (I : Intervals) (M : Medium ι) (outOfRange : ℚ → UInt32) (s₀ : Fleet ι)
    (T : Transition (Fleet ι) (Event ι) (List (Flight ι)) → Prop) (s : Fleet ι) : Prop where
  clock : ∀ i, (s.nodes i).now = s.now
  phase : ∀ i, (s.nodes i).Phase I
  role : ∀ i, (s₀.nodes i).SameRole (s.nodes i)
  mute : ∀ i, (s.nodes i).Mute
  sockets : ∀ i, (s.nodes i).node.socketAddresses = (s₀.nodes i).node.socketAddresses
  pending : ∀ m ∈ s.inFlight, s.now ≤ m.deadline
  origin : ∀ m ∈ s.inFlight, Origin M outOfRange s₀ T s.now m

theorem Initial.sound (h : Initial s) : Sound I M outOfRange s T s where
  clock := h.now
  phase i := .inl (h.new i)
  role _ := ⟨rfl, rfl⟩
  mute i := ⟨.inr (h.plain i), by rw [(h.new i).authenticationTimer]⟩
  sockets _ := rfl
  pending m hm := by
    rw [h.inFlight] at hm
    cases hm
  origin m hm := by
    rw [h.inFlight] at hm
    cases hm

section
variable (hs : Sound I M outOfRange s₀ T s)
include hs

theorem Sound.hasAddress {i : ι} {a : Ipv4Address} :
    (s.nodes i).node.HasAddress a ↔ (s₀.nodes i).node.HasAddress a := by
  rw [Node.HasAddress, hs.sockets i, ← Node.HasAddress]

theorem Sound.isGroundStation (i : ι) :
    (s.nodes i).node.isGroundStation = (s₀.nodes i).node.isGroundStation :=
  (hs.role i).isGroundStation

theorem Sound.plain (hs₀ : Initial s₀) (i : ι) : (s.nodes i).node.securityState = false :=
  (hs.role i).securityState.trans (hs₀.plain i)

end

/-! ### Steps -/

/-- An event after which a node advertises is the expiry of the timer of its role. -/
theorem ownEvent_of_does {s t : Advertiser} {e : Advertiser.Event} {es : List Effect}
    (hI : 0 ≤ I.gsInterval) (hs : s.Phase I) (h : Advertiser.Does E I outOfRange s e t es)
    (he : e.advertises = true) : e = s.ownEvent := by
  have hrun : Run (Advertiser.Step E I outOfRange) s [⟨s, e, es, t⟩] t :=
    .single ⟨s, e, es, t⟩ h
  exact Advertiser.own_of_advertises hI hs hrun _ (List.mem_singleton_self _) he

theorem Sound.airborne (hI : 0 ≤ I.gsInterval) (hs : Sound I M outOfRange s₀ T s) {i : ι}
    {n : Advertiser} {es : List Effect}
    (h : Advertiser.Does E I outOfRange (s.nodes i) .helloTimer n es) :
    (s₀.nodes i).node.isGroundStation = false := by
  have hown := ownEvent_of_does hI (hs.phase i) h rfl
  rw [Advertiser.ownEvent, hs.isGroundStation] at hown
  by_contra hgs
  rw [if_pos (eq_true_of_ne_false hgs)] at hown
  cases hown

theorem Sound.ground (hI : 0 ≤ I.gsInterval) (hs : Sound I M outOfRange s₀ T s) {i : ι}
    {n : Advertiser} {es : List Effect}
    (h : Advertiser.Does E I outOfRange (s.nodes i) .gsTimer n es) :
    (s₀.nodes i).node.isGroundStation = true := by
  have hown := ownEvent_of_does hI (hs.phase i) h rfl
  rw [Advertiser.ownEvent, hs.isGroundStation] at hown
  by_contra hgs
  rw [if_neg hgs] at hown
  cases hown

/-- A local event of a node sends a message only if it is the expiry of the timer of the role of
the node. -/
theorem Sound.origin_act [DecidableEq ι] (hI : 0 ≤ I.gsInterval)
    (hs : Sound I M outOfRange s₀ T s) {i : ι} {e : Advertiser.Event} {ms : List (Flight ι)}
    (h : Does E I outOfRange M s (.act i e) t ms) (hT : T ⟨s, .act i e, ms, t⟩) {m : Flight ι}
    (hm : m ∈ ms) : Origin M outOfRange s₀ T s.now m := by
  cases h with
  | act he h hms =>
    obtain ⟨⟨j, hj, ha, destination, hsend⟩, -, hdeadline⟩ := hms.sent m hm
    refine ⟨_, i, hT, le_rfl, hdeadline, ?_⟩
    have haddress : (s₀.nodes i).node.HasAddress m.sender := hs.hasAddress.mp ⟨j, hj, ha⟩
    rcases h.send_cases he hsend with rfl | ⟨rfl, hbytes⟩ | ⟨rfl, hdr, hbytes⟩
    · rcases h.authenticates with ⟨hne, -⟩ | ⟨-, hdue, -⟩ | ⟨hne, -⟩
      · cases hne
      · exact absurd (hs.mute i).2 hdue
      · exact absurd rfl hne
    · exact .inl ⟨rfl, hm, hs.airborne hI h, haddress, hbytes⟩
    · exact .inr ⟨hdr, rfl, hm, hs.ground hI h, haddress, hbytes⟩

/-- What a node makes of a HELLO message. -/
def greeted (outOfRange : ℚ → UInt32) (now : Time) (chance : Chance) (sender : Ipv4Address)
    (sending n : Node) : Node :=
  { n with
    neighbors := n.neighbors.addEntry now sender (helloPosition (sending.helloHeader outOfRange))
      (helloVelocity chance (sending.helloHeader outOfRange)) }

/-- What a node makes of a GSGEOLOCATION message. -/
def located (now : Time) (hdr : GSGeoLocationHeader) (n : Node) : Node :=
  { n with
    nodesPosition := n.nodesPosition.addEntry now hdr.node
      ⟨hdr.nodePosx.toNat, hdr.nodePosy.toNat, hdr.nodePosz.toNat⟩ }

section
variable {β : Type} (E : Env β) (now : Time) (chance : Chance) {n : Node} {m : Flight ι} {j : ι}

theorem Greets.recvAERORP (h : Greets s₀ outOfRange x j m) (hn : n.securityState = false) :
    ∃ eff, n.recvAERORP E now chance m.datagram =
        .ok (greeted outOfRange now chance m.sender (x.pre.nodes j).node n, [eff]) ∧
      ¬ eff.IsSend := by
  rw [SecureControl.recvAERORP_hello (SecureControl.not_ignores_of_insecure hn _) now h.bytes]
  refine ⟨_, rfl, ?_⟩
  exact id

theorem Locates.recvAERORP {hdr : GSGeoLocationHeader} (h : Locates s₀ x j m hdr)
    (hn : n.securityState = false) :
    ∃ eff, n.recvAERORP E now chance m.datagram = .ok (located now hdr n, [eff]) ∧
      ¬ eff.IsSend := by
  rw [SecureControl.recvAERORP_gsGeoLocation (SecureControl.not_ignores_of_insecure hn _) now
    h.bytes]
  refine ⟨_, rfl, ?_⟩
  exact id

end

/-- A delivery at time `now` writes an entry for what the message says into the tables of its
destination. -/
inductive Writes (M : Medium ι) (outOfRange : ℚ → UInt32) (s₀ : Fleet ι)
    (T : Transition (Fleet ι) (Event ι) (List (Flight ι)) → Prop) (now : Time) (m : Flight ι)
    (n : Node) : Node → Prop
  | greeted {x : Transition (Fleet ι) (Event ι) (List (Flight ι))} {j : ι} (chance : Chance)
      (hT : T x) (hle : x.pre.now ≤ now) (hdelay : now ≤ x.pre.now + M.delay)
      (h : Greets s₀ outOfRange x j m) :
      Writes M outOfRange s₀ T now m n
        (greeted outOfRange now chance m.sender (x.pre.nodes j).node n)
  | located {x : Transition (Fleet ι) (Event ι) (List (Flight ι))} {j : ι}
      {hdr : GSGeoLocationHeader} (hT : T x) (hle : x.pre.now ≤ now)
      (hdelay : now ≤ x.pre.now + M.delay) (h : Locates s₀ x j m hdr) :
      Writes M outOfRange s₀ T now m n (located now hdr n)

theorem Sound.deliver [DecidableEq ι] (hs₀ : Initial s₀) (hs : Sound I M outOfRange s₀ T s)
    {m : Flight ι} {ms : List (Flight ι)} (h : Does E I outOfRange M s (.deliver m) t ms) :
    m ∈ s.inFlight ∧ ∃ node,
      (∃ chance es, Advertiser.Does E I outOfRange (s.nodes m.destination)
        (.call (.recv chance m.datagram)) { s.nodes m.destination with node } es) ∧
      Writes M outOfRange s₀ T s.now m (s.nodes m.destination).node node ∧
      t = { s with
        nodes := Function.update s.nodes m.destination { s.nodes m.destination with node }
        inFlight := s.inFlight.erase m } := by
  cases h with
  | @deliver _ chance n es _ hm h hms =>
    refine ⟨hm, ?_⟩
    obtain ⟨x, j, hT, hle, hdeadline, horigin⟩ := hs.origin m hm
    have hdelay : s.now ≤ x.pre.now + M.delay := (hs.pending m hm).trans hdeadline
    have hplain := hs.plain hs₀ m.destination
    have hclock := hs.clock m.destination
    have hwrites : ∃ node, n = { s.nodes m.destination with node } ∧
        Writes M outOfRange s₀ T s.now m (s.nodes m.destination).node node ∧
        ∀ e ∈ es, ¬ e.IsSend := by
      clear hms
      cases h with
      | call _ h =>
        rw [hclock] at h
        cases h with
        | recv h =>
          refine ⟨_, rfl, ?_⟩
          rcases horigin with hgreets | ⟨hdr, hlocates⟩
          · obtain ⟨eff, heq, hquiet⟩ := hgreets.recvAERORP E s.now chance hplain
            rw [heq] at h
            cases h
            exact ⟨.greeted chance hT hle hdelay hgreets, by simpa using hquiet⟩
          · obtain ⟨eff, heq, hquiet⟩ := hlocates.recvAERORP E s.now chance hplain
            rw [heq] at h
            cases h
            exact ⟨.located hT hle hdelay hlocates, by simpa using hquiet⟩
    obtain ⟨node, rfl, hwrites, hquiet⟩ := hwrites
    have hnone : ms = [] := by
      rw [List.eq_nil_iff_forall_not_mem]
      intro m' hm'
      obtain ⟨⟨j, -, -, destination, hsend⟩, -⟩ := hms.sent m' hm'
      exact hquiet _ hsend trivial
    rw [hnone, List.append_nil]
    exact ⟨node, ⟨chance, es, h⟩, hwrites, rfl⟩

theorem Origin.mono {now now' : Time} {m : Flight ι} (h : Origin M outOfRange s₀ T now m)
    (hle : now ≤ now') : Origin M outOfRange s₀ T now' m := by
  obtain ⟨x, j, hT, hnow, hrest⟩ := h
  exact ⟨x, j, hT, hnow.trans hle, hrest⟩

/-- What holds of each node of a sound fleet. -/
structure SoundNode (I : Intervals) (s₀ : Fleet ι) (now : Time) (i : ι) (n : Advertiser) :
    Prop where
  clock : n.now = now
  phase : n.Phase I
  role : (s₀.nodes i).SameRole n
  mute : n.Mute
  sockets : n.node.socketAddresses = (s₀.nodes i).node.socketAddresses

theorem Sound.node (hs : Sound I M outOfRange s₀ T s) (i : ι) :
    SoundNode I s₀ s.now i (s.nodes i) :=
  ⟨hs.clock i, hs.phase i, hs.role i, hs.mute i, hs.sockets i⟩

/-- An event of a node keeps what holds of it. -/
theorem SoundNode.does (hI : 0 ≤ I.gsInterval) {now now' : Time} {i : ι} {n n' : Advertiser}
    {e : Advertiser.Event} {es : List Effect} (hn : SoundNode I s₀ now i n)
    (h : Advertiser.Does E I outOfRange n e n' es) (hnow : n'.now = now')
    (hsockets : n'.node.socketAddresses = n.node.socketAddresses) :
    SoundNode I s₀ now' i n' where
  clock := hnow
  phase := Advertiser.phase_step hI ⟨n, e, es, n'⟩ h hn.phase
  role := hn.role.trans h.sameRole
  mute := Advertiser.mute_step ⟨n, e, es, n'⟩ h hn.mute
  sockets := hsockets.trans hn.sockets

theorem Sound.of_nodes (hnodes : ∀ i, SoundNode I s₀ s.now i (s.nodes i))
    (hpending : ∀ m ∈ s.inFlight, s.now ≤ m.deadline)
    (horigin : ∀ m ∈ s.inFlight, Origin M outOfRange s₀ T s.now m) :
    Sound I M outOfRange s₀ T s where
  clock i := (hnodes i).clock
  phase i := (hnodes i).phase
  role i := (hnodes i).role
  mute i := (hnodes i).mute
  sockets i := (hnodes i).sockets
  pending := hpending
  origin := horigin

section
variable [DecidableEq ι]

/-- A fleet stays sound when one of its nodes changes. -/
theorem Sound.update (hs : Sound I M outOfRange s₀ T s) {i : ι} {n : Advertiser}
    (hn : SoundNode I s₀ s.now i n) (j : ι) :
    SoundNode I s₀ s.now j (Function.update s.nodes i n j) :=
  (Function.forall_update_iff s.nodes (SoundNode I s₀ s.now)).mpr ⟨hn, fun j _ => hs.node j⟩ j

theorem Sound.does (hI : 0 ≤ I.gsInterval) (hs₀ : Initial s₀) (hs : Sound I M outOfRange s₀ T s)
    {e : Event ι} {ms : List (Flight ι)} (h : Does E I outOfRange M s e t ms)
    (hT : T ⟨s, e, ms, t⟩) : Sound I M outOfRange s₀ T t := by
  cases e with
  | advance dt =>
    cases h with
    | advance hnodes hflights =>
      refine .of_nodes (fun i => (hs.node i).does hI (hnodes i) ?_ rfl) hflights fun m hm => ?_
      · show (s.nodes i).now + dt = s.now + dt
        rw [hs.clock i]
      · have hdt : 0 ≤ dt := (hnodes m.destination).nonneg
        exact (hs.origin m hm).mono (by linarith)
  | act i e =>
    have horigin : ∀ m ∈ ms, Origin M outOfRange s₀ T s.now m := fun m hm =>
      hs.origin_act hI h hT hm
    cases h with
    | act he h hms =>
      have hnow := (h.now_eq (by rintro dt rfl; exact he)).trans (hs.clock i)
      refine .of_nodes (hs.update ((hs.node i).does hI h hnow (h.keepsTables he).socketAddresses))
        (fun m hm => ?_) fun m hm => ?_
      · rcases List.mem_append.mp hm with hm | hm
        · exact hs.pending m hm
        · exact (hms.sent m hm).2.1
      · rcases List.mem_append.mp hm with hm | hm
        · exact hs.origin m hm
        · exact horigin m hm
  | deliver m =>
    obtain ⟨-, node, ⟨chance, es, hdoes⟩, hwrites, rfl⟩ := hs.deliver hs₀ h
    have hsockets : node.socketAddresses = (s.nodes m.destination).node.socketAddresses := by
      cases hwrites <;> rfl
    exact .of_nodes (hs.update ((hs.node _).does hI hdoes (hs.clock _) hsockets))
      (fun m' hm' => hs.pending m' (List.mem_of_mem_erase hm'))
      fun m' hm' => hs.origin m' (List.mem_of_mem_erase hm')

theorem sound_run (hI : 0 ≤ I.gsInterval) (hs₀ : Initial s₀)
    (h : Run (Step E I outOfRange M) s₀ tr u) :
    Sound I M outOfRange s₀ (· ∈ tr) u ∧ ∀ x ∈ tr, Sound I M outOfRange s₀ (· ∈ tr) x.pre :=
  h.invariant_of (C := (· ∈ tr)) (fun _ hx hT hpre => hpre.does hI hs₀ hx hT) (fun _ hx => hx)
    hs₀.sound

end

/-! ### The tables -/

/-- Where the node is and how it moves, rounded toward zero, as far as the message can say it. -/
structure Describes (n : Node) (e : NeighborTableEntry) : Prop where
  position : (n.position.Forall fun c => 0 ≤ c ∧ c < 2 ^ 32) → e.position = n.position.truncate
  velocity : n.velocity.Forall (|·| < 2 ^ 32) → e.velocity = n.velocity.truncate

/-- One of the transitions made the message the entry is from, and the entry was written within
the delay of the medium. -/
def Told (M : Medium ι) (outOfRange : ℚ → UInt32) (s₀ : Fleet ι)
    (T : Transition (Fleet ι) (Event ι) (List (Flight ι)) → Prop) (a : Ipv4Address)
    (e : NeighborTableEntry × Time) : Prop :=
  ∃ x j m, T x ∧ Greets s₀ outOfRange x j m ∧ m.sender = a ∧ x.pre.now ≤ e.2 ∧
    e.2 ≤ x.pre.now + M.delay ∧ Describes (x.pre.nodes j).node e.1

def ToldPosition (M : Medium ι) (s₀ : Fleet ι)
    (T : Transition (Fleet ι) (Event ι) (List (Flight ι)) → Prop) (b : Ipv4Address)
    (e : Vector3D × Time) : Prop :=
  ∃ x j m hdr, T x ∧ Locates s₀ x j m hdr ∧ hdr.node = b ∧ x.pre.now ≤ e.2 ∧
    e.2 ≤ x.pre.now + M.delay ∧
    e.1 = ⟨hdr.nodePosx.toNat, hdr.nodePosy.toNat, hdr.nodePosz.toNat⟩

structure Truthful (M : Medium ι) (outOfRange : ℚ → UInt32) (s₀ : Fleet ι)
    (T : Transition (Fleet ι) (Event ι) (List (Flight ι)) → Prop) (n : Node) : Prop where
  neighbors : ∀ (a : Ipv4Address) (e : NeighborTableEntry × Time),
    n.neighbors.table[a]? = some e → Told M outOfRange s₀ T a e
  nodesPosition : ∀ (b : Ipv4Address) (e : Vector3D × Time),
    n.nodesPosition.table[b]? = some e → ToldPosition M s₀ T b e

theorem describes_greeted (chance : Chance) (n : Node) :
    Describes n ⟨helloPosition (n.helloHeader outOfRange),
      helloVelocity chance (n.helloHeader outOfRange)⟩ where
  position h := AdvertisedMotion.helloPosition_helloHeader (AdvertisedMotion.fits_of_nonneg h)
  velocity h := AdvertisedMotion.helloVelocity_helloHeader h

theorem Initial.truthful (h : Initial s) (i : ι) :
    Truthful M outOfRange s T (s.nodes i).node where
  neighbors a e he := by simp [h.neighbors i] at he
  nodesPosition b e he := by simp [h.nodesPosition i] at he

theorem Truthful.keepsTables {n m : Node} (hn : Truthful M outOfRange s₀ T n) {now : Time}
    (h : n.KeepsTables now m) : Truthful M outOfRange s₀ T m where
  neighbors a e he := by
    rcases h.neighbors with heq | heq <;> rw [heq] at he
    · exact hn.neighbors a e he
    · exact hn.neighbors a e (EntryTable.getElem?_purge_eq_some.mp he).1
  nodesPosition b e he := by
    rw [h.nodesPosition] at he
    exact hn.nodesPosition b e he

theorem Truthful.writes {n m : Node} (hn : Truthful M outOfRange s₀ T n) {now : Time}
    {f : Flight ι} (h : Writes M outOfRange s₀ T now f n m) : Truthful M outOfRange s₀ T m := by
  cases h with
  | greeted chance hT hle hdelay hgreets =>
    refine ⟨fun a e he => ?_, hn.nodesPosition⟩
    rw [greeted, NeighborTable.addEntry, EntryTable.getElem?_addEntry] at he
    split_ifs at he with ha
    · cases he
      exact ⟨_, _, _, hT, hgreets, ha, hle, hdelay, describes_greeted chance _⟩
    · exact hn.neighbors a e he
  | located hT hle hdelay hlocates =>
    refine ⟨hn.neighbors, fun b e he => ?_⟩
    rw [located, NodesPositionTable.addEntry, EntryTable.getElem?_addEntry] at he
    split_ifs at he with hb
    · cases he
      exact ⟨_, _, _, _, hT, hlocates, hb, hle, hdelay, rfl⟩
    · exact hn.nodesPosition b e he

theorem truthful_does [DecidableEq ι] (hs₀ : Initial s₀) (hsound : Sound I M outOfRange s₀ T s)
    (hs : ∀ i, Truthful M outOfRange s₀ T (s.nodes i).node) {e : Event ι} {ms : List (Flight ι)}
    (h : Does E I outOfRange M s e t ms) : ∀ i, Truthful M outOfRange s₀ T (t.nodes i).node := by
  cases e with
  | advance dt =>
    cases h with
    | advance => exact hs
  | act i e =>
    cases h with
    | act he h =>
      exact (Function.forall_update_iff s.nodes fun _ n => Truthful M outOfRange s₀ T n.node).mpr
        ⟨(hs i).keepsTables (h.keepsTables he), fun j _ => hs j⟩
  | deliver m =>
    obtain ⟨-, node, -, hwrites, rfl⟩ := hsound.deliver hs₀ h
    exact (Function.forall_update_iff s.nodes fun _ n => Truthful M outOfRange s₀ T n.node).mpr
      ⟨(hs _).writes hwrites, fun j _ => hs j⟩

/-- Every message in flight is accepted by the node it arrives at. -/
theorem Sound.exists_deliver [DecidableEq ι] (hs₀ : Initial s₀)
    (hs : Sound I M outOfRange s₀ T s) {m : Flight ι} (hm : m ∈ s.inFlight) :
    ∃ t, Does E I outOfRange M s (.deliver m) t [] := by
  have chance : Chance := ⟨⟨0, 0, 0⟩, fun _ => 0, 0, 0⟩
  obtain ⟨x, j, -, -, -, horigin⟩ := hs.origin m hm
  have hplain := hs.plain hs₀ m.destination
  have hrecv : ∃ node eff, (s.nodes m.destination).node.recvAERORP E (s.nodes m.destination).now
      chance m.datagram = .ok (node, [eff]) ∧ ¬ eff.IsSend := by
    rcases horigin with hgreets | ⟨hdr, hlocates⟩
    · exact ⟨_, hgreets.recvAERORP E _ chance hplain⟩
    · exact ⟨_, hlocates.recvAERORP E _ chance hplain⟩
  obtain ⟨node, eff, hrecv, hquiet⟩ := hrecv
  exact ⟨_, .deliver hm (.call trivial (.recv hrecv)) (M.carries_nil _ _ (by simpa using hquiet))⟩

theorem truthful_run [DecidableEq ι] (hI : 0 ≤ I.gsInterval) (hs₀ : Initial s₀)
    (h : Run (Step E I outOfRange M) s₀ tr u) (i : ι) :
    Truthful M outOfRange s₀ (· ∈ tr) (u.nodes i).node :=
  (h.invariant_of (C := (· ∈ tr))
    (I := fun s => Sound I M outOfRange s₀ (· ∈ tr) s ∧
      ∀ i, Truthful M outOfRange s₀ (· ∈ tr) (s.nodes i).node)
    (fun _ hx hT hpre => ⟨hpre.1.does hI hs₀ hx hT, truthful_does hs₀ hpre.1 hpre.2 hx⟩)
    (fun _ hx => hx) ⟨hs₀.sound, hs₀.truthful⟩).1.2 i

/-- No message in flight is refused, and the tables hold what the nodes said of themselves, and
the ground station of them, at most the delay of the medium before. -/
theorem tables_truthful [DecidableEq ι] (hI : 0 ≤ I.gsInterval) (hs₀ : Initial s₀)
    (h : Run (Step E I outOfRange M) s₀ tr u) :
    (∀ i, Truthful M outOfRange s₀ (· ∈ tr) (u.nodes i).node) ∧
      ∀ m ∈ u.inFlight, ∃ t, Does E I outOfRange M u (.deliver m) t [] :=
  ⟨truthful_run hI hs₀ h, fun _ hm => (sound_run hI hs₀ h).1.exists_deliver hs₀ hm⟩

/-! ### Two nodes -/

/-- Node 0 hears node 1 at once. -/
def radio : Medium Bool := ⟨fun i _ => i = false, 0, le_rfl⟩

/-- A node that does not advertise or is a ground station, and node 1 with its timer. -/
def pair (now : Time) (listener : Node) (timer : Timer) (inFlight : List (Flight Bool))
    (gsTimer : Timer := {}) : Fleet Bool :=
  ⟨now, fun i =>
      if i then ⟨now, Sample.node 1, timer, {}, {}⟩ else ⟨now, listener, {}, gsTimer, {}⟩,
    inFlight⟩

/-- The message of node 1. -/
def salute (now : Time) : Flight Bool :=
  ⟨.ofOctets 10 1 1 2, false, (Sample.node 1).helloMessage fun _ => 0, 5, now⟩

theorem toList_socketAddresses (k : UInt8) :
    (Sample.node k).socketAddresses.toList = [(1, Sample.interface k 1)] := rfl

theorem hasAddress_node {k : UInt8} {a : Ipv4Address} :
    (Sample.node k).HasAddress a ↔ a = .ofOctets 10 1 1 (k + 1) := by
  simp [Node.HasAddress, toList_socketAddresses, Sample.interface, eq_comm]

section
variable {now gap : Time} {listener : Node} {timer timer' gs gs' : Timer}

theorem update_pair_true (inFlight ms : List (Flight Bool)) :
    Function.update (pair now listener timer inFlight gs).nodes true
      ⟨now, Sample.node 1, timer', {}, {}⟩ = (pair now listener timer' ms gs).nodes := by
  funext i
  cases i <;> rfl

theorem update_pair_false (inFlight ms : List (Flight Bool)) (node : Node) :
    Function.update (pair now listener timer inFlight gs).nodes false
      ⟨now, node, {}, gs', {}⟩ = (pair now node timer ms gs').nodes := by
  funext i
  cases i <;> rfl

theorem start_pair : Does Sample.env { gsInterval := gap } (fun _ => 0) radio
    (pair 0 listener {} [] gs) (.act true .start) (pair 0 listener ⟨true, some 0⟩ [] gs) [] := by
  have hok : Advertiser.start (Sample.credentials 1) (Sample.fill _ []) 0 0 0
      ⟨0, Sample.node 1, {}, {}, {}⟩ = .ok ⟨0, Sample.node 1, ⟨true, some 0⟩, {}, {}⟩ := rfl
  have hzero : (2 * 0 : ℤ) ≤ Time.seconds 1 := by decide
  have hstart : Advertiser.Does Sample.env { gsInterval := gap } (fun _ => 0)
      ⟨0, Sample.node 1, {}, {}, {}⟩ .start ⟨0, Sample.node 1, ⟨true, some 0⟩, {}, {}⟩ [] :=
    .start ⟨le_rfl, hzero⟩ ⟨le_rfl, hzero⟩
      ⟨le_rfl, show (0 : ℤ) ≤ Time.seconds 3 by decide⟩ hok
  have hdoes := Does.act (s := pair 0 listener {} [] gs) (i := true) (e := .start) trivial hstart
    (radio.carries_nil _ _ (by simp))
  rwa [update_pair_true _ []] at hdoes

/-- The message of node 1 is on its way to the node that hears it. -/
theorem hello_pair : Does Sample.env { gsInterval := gap } (fun _ => 0) radio
    (pair now listener ⟨true, some now⟩ [] gs) (.act true .helloTimer)
    (pair now listener ⟨true, some (now + Time.milliSeconds 1500)⟩ [salute now] gs)
    [salute now] := by
  have hok : Advertiser.helloTimerExpire { gsInterval := gap } (fun _ => 0)
      (Time.milliSeconds 500) ⟨now, Sample.node 1, ⟨true, some now⟩, {}, {}⟩ =
      .ok (⟨now, Sample.node 1, ⟨true, some (now + Time.milliSeconds 1500)⟩, {}, {}⟩,
        (Sample.node 1).sendHello fun _ => 0) := rfl
  have hjitter : -Time.seconds 1 ≤ 2 * Time.milliSeconds 500 ∧
      2 * Time.milliSeconds 500 ≤ Time.seconds 1 := by decide
  have hhello : Advertiser.Does Sample.env { gsInterval := gap } (fun _ => 0)
      ⟨now, Sample.node 1, ⟨true, some now⟩, {}, {}⟩ .helloTimer _ _ :=
    .helloTimer rfl hjitter hok
  have hcarries : radio.Carries now (Sample.node 1) ((Sample.node 1).sendHello fun _ => 0)
      [salute now] := by
    refine ⟨fun m hm => ?_, ?_⟩
    · rw [List.mem_singleton.mp hm]
      have hmem : (1, Sample.interface 1 1) ∈ (Sample.node 1).socketAddresses.toList := by
        rw [toList_socketAddresses]
        exact List.mem_singleton_self _
      exact ⟨⟨_, hmem, rfl, _, List.mem_map.mpr ⟨_, hmem, rfl⟩⟩, le_rfl, by simp [salute, radio]⟩
    · rintro a bytes ⟨j, hj, rfl, destination, hsend⟩ i rfl
      obtain ⟨k, hk, hsend⟩ := List.mem_map.mp hsend
      rw [toList_socketAddresses] at hj hk
      cases List.mem_singleton.mp hj
      cases List.mem_singleton.mp hk
      cases hsend
      exact ⟨_, List.mem_singleton_self _, rfl, rfl, rfl⟩
  have hdoes := Does.act (s := pair now listener ⟨true, some now⟩ [] gs) (i := true)
    (e := .helloTimer) trivial hhello hcarries
  rwa [update_pair_true _ [salute now]] at hdoes

/-- The message arrives at the listener. -/
theorem deliver_pair (hplain : listener.securityState = false) :
    Does Sample.env { gsInterval := gap } (fun _ => 0) radio
      (pair now listener timer [salute now] gs)
      (.deliver (salute now)) (pair now (greeted (fun _ => 0) now Sample.chance
        (.ofOctets 10 1 1 2) (Sample.node 1) listener) timer [] gs) [] := by
  have hbytes : (salute now).datagram.packet.bytes = TypeHeader.serialize ⟨.hello, true⟩ ++
      ((Sample.node 1).helloHeader fun _ => 0).serialize := rfl
  have hrecv : listener.recvAERORP Sample.env now Sample.chance (salute now).datagram = _ :=
    SecureControl.recvAERORP_hello (SecureControl.not_ignores_of_insecure hplain _) now hbytes
  have hnode : Advertiser.Does Sample.env { gsInterval := gap } (fun _ => 0)
      ⟨now, listener, {}, gs, {}⟩ (.call (.recv Sample.chance (salute now).datagram))
      ⟨now, greeted (fun _ => 0) now Sample.chance (.ofOctets 10 1 1 2) (Sample.node 1) listener,
        {}, gs, {}⟩ _ := .call trivial (.recv hrecv)
  have hdoes : Does Sample.env { gsInterval := gap } (fun _ => 0) radio
      (pair now listener timer [salute now] gs) (.deliver (salute now)) _ [] :=
    .deliver (List.mem_singleton_self _) hnode (radio.carries_nil _ _ (by simp [Effect.IsSend]))
  rwa [show (salute now).destination = false from rfl, update_pair_false _ [], List.append_nil,
    show (pair now listener timer [salute now] gs).inFlight = [salute now] from rfl,
    List.erase_cons_head] at hdoes

/-- The listener is idle, and time may pass until a timer expires. -/
theorem advance_pair {dt expiry : Time} (hdt : 0 ≤ dt) (hidle : listener.checkQueueTimer = none)
    (hgs : ∀ t, gs.expiry = some t → now + dt ≤ t) (hle : now + dt ≤ expiry) :
    Does Sample.env { gsInterval := gap } (fun _ => 0) radio
      (pair now listener ⟨true, some expiry⟩ [] gs)
      (.advance dt) (pair (now + dt) listener ⟨true, some expiry⟩ [] gs) [] := by
  have hdoes : Does Sample.env { gsInterval := gap } (fun _ => 0) radio
      (pair now listener ⟨true, some expiry⟩ [] gs) (.advance dt) _ [] :=
    .advance (fun i => ?_) (fun m hm => by cases hm)
  · have hnodes : (fun i => { (pair now listener ⟨true, some expiry⟩ [] gs).nodes i with
        now := ((pair now listener ⟨true, some expiry⟩ [] gs).nodes i).now + dt }) =
        (pair (now + dt) listener ⟨true, some expiry⟩ [] gs).nodes := by
      funext i
      cases i <;> rfl
    rwa [hnodes] at hdoes
  · cases i with
    | false =>
      refine .advance (.advance hdt fun t ht => ?_) fun timer htimer t ht => ?_
      · have hnone : listener.checkQueueTimer = some t := ht
        rw [hidle] at hnone
        cases hnone
      · have htimers : timer = {} ∨ timer = gs := by
          simpa [pair, or_comm, or_left_comm] using htimer
        rcases htimers with rfl | rfl
        · cases ht
        · exact hgs t ht
    | true =>
      refine .advance (.advance hdt fun t ht => ?_) fun timer htimer t ht => ?_
      · cases ht
      · have htimers : timer = ⟨true, some expiry⟩ ∨ timer = {} := by simpa [pair] using htimer
        rcases htimers with rfl | rfl
        · cases ht
          exact hle
        · cases ht

/-- What the message of node 1 makes of the listener. -/
def saluted (now : Time) (listener : Node) : Node :=
  greeted (fun _ => 0) now Sample.chance (.ofOctets 10 1 1 2) (Sample.node 1) listener

variable (now gap gs) in
/-- Node 1 sends a message, and it arrives. -/
theorem exists_salute_run (hplain : listener.securityState = false) :
    ∃ tr, Run (Step Sample.env { gsInterval := gap } (fun _ => 0) radio)
      (pair now listener ⟨true, some now⟩ [] gs) tr
      (pair now (saluted now listener) ⟨true, some (now + Time.milliSeconds 1500)⟩ [] gs) :=
  ⟨_, .cons (x := ⟨_, _, _, _⟩) rfl hello_pair
    (.single ⟨_, _, _, _⟩ (deliver_pair hplain))⟩

/-- Node 1 starts, and its first message arrives. -/
theorem exists_run_pair : ∃ tr, Run (Step Sample.env {} (fun _ => 0) radio)
    (pair 0 (Sample.node 0) {} [])
    (⟨pair 0 (Sample.node 0) {} [], .act true .start, [],
      pair 0 (Sample.node 0) ⟨true, some 0⟩ []⟩ :: tr)
    (pair 0 (saluted 0 (Sample.node 0)) ⟨true, some (Time.milliSeconds 1500)⟩ []) := by
  have hplain : (Sample.node 0).securityState = false := rfl
  obtain ⟨tr, hrun⟩ := exists_salute_run 0 (Time.seconds 5) {} hplain
  exact ⟨tr, .cons rfl start_pair hrun⟩

theorem pair_initial : Initial (pair 0 (Sample.node 0) {} []) where
  inFlight := rfl
  now i := by cases i <;> rfl
  new i := by cases i <;> exact ⟨rfl, rfl, rfl⟩
  plain i := by cases i <;> rfl
  neighbors i := by cases i <;> rfl
  nodesPosition i := by cases i <;> rfl
  distinct i j a hi hj := by
    cases i <;> cases j <;> try rfl
    all_goals
      have hi := hasAddress_node.mp hi
      have hj := hasAddress_node.mp hj
      rw [hi] at hj
      exact absurd hj (by decide)

theorem tables_truthful_pair : ∃ tr, Run (Step Sample.env {} (fun _ => 0) radio)
    (pair 0 (Sample.node 0) {} []) tr
    (pair 0 (saluted 0 (Sample.node 0)) ⟨true, some (Time.milliSeconds 1500)⟩ []) ∧
    Truthful radio (fun _ => 0) (pair 0 (Sample.node 0) {} []) (· ∈ tr)
      (saluted 0 (Sample.node 0)) := by
  obtain ⟨tr, hrun⟩ := exists_run_pair
  exact ⟨_, hrun, (tables_truthful (by decide) pair_initial hrun).1 false⟩

end

end SAeroRP.Fleet
