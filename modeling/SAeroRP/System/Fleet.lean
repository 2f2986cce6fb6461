import SAeroRP.System.Timers

/-! Nodes in plain mode on a network without an adversary. What a node sends from one of its
addresses reaches the nodes that hear the address within a bounded delay; it may reach others too,
or more than once. Time does not pass the arrival of a message. -/

namespace SAeroRP

open Library

/-- An advertisement on its way to a node, and the time by which it arrives. -/
structure Flight (ι : Type) where
  sender : Ipv4Address
  destination : ι
  bytes : Bytes
  uid : UInt64
  deadline : Time
  deriving DecidableEq

def Flight.datagram {ι : Type} (m : Flight ι) : Datagram := ⟨m.sender, ⟨m.bytes, m.uid, false⟩⟩

/-- Which nodes hear what is sent from an address, and how long that takes at most. -/
structure Medium (ι : Type) where
  hears : ι → Ipv4Address → Prop
  delay : Time
  delay_nonneg : 0 ≤ delay

/-- The node has a socket at the address. -/
def Node.HasAddress (n : Node) (a : Ipv4Address) : Prop :=
  ∃ j ∈ n.socketAddresses.toList, j.2.localAddress = a

/-- The node sends the message from the address. -/
def Node.Sends (n : Node) (es : List Effect) (a : Ipv4Address) (bytes : Bytes) : Prop :=
  ∃ j ∈ n.socketAddresses.toList, j.2.localAddress = a ∧
    ∃ destination, .sendTo j.1 bytes destination ∈ es

/-- The medium makes the messages `ms` of what the node puts out at time `now`. -/
structure Medium.Carries {ι : Type} (M : Medium ι) (now : Time) (n : Node) (es : List Effect)
    (ms : List (Flight ι)) : Prop where
  sent : ∀ m ∈ ms, n.Sends es m.sender m.bytes ∧ now ≤ m.deadline ∧ m.deadline ≤ now + M.delay
  heard : ∀ a bytes, n.Sends es a bytes → ∀ i, M.hears i a →
    ∃ m ∈ ms, m.destination = i ∧ m.sender = a ∧ m.bytes = bytes

structure Fleet (ι : Type) where
  now : Time
  nodes : ι → Advertiser
  inFlight : List (Flight ι) := []

namespace Fleet

variable {ι : Type} [DecidableEq ι]

inductive Event (ι : Type) where
  | advance (dt : Time)
  | act (i : ι) (e : Advertiser.Event)
  | deliver (m : Flight ι)

/-- The events of a node other than the clock and the messages that arrive. -/
def IsLocal : Advertiser.Event → Prop
  | .advance _ => False
  | .call (.recv _ _) => False
  | _ => True

variable {β : Type} [Preorder β] [DecidableLT β] [DecidableEq β] [Zero β]

/-- `Does E I outOfRange M s e t ms`: in state `s` the event `e` may happen, leads to `t` and puts
the messages `ms` in flight. -/
inductive Does (E : Env β) (I : Intervals) (outOfRange : ℚ → UInt32) (M : Medium ι) (s : Fleet ι) :
    Event ι → Fleet ι → List (Flight ι) → Prop
  | advance {dt : Time}
      (hnodes : ∀ i, Advertiser.Does E I outOfRange (s.nodes i) (.advance dt)
        { s.nodes i with now := (s.nodes i).now + dt } [])
      (hflights : ∀ m ∈ s.inFlight, s.now + dt ≤ m.deadline) :
      Does E I outOfRange M s (.advance dt)
        { s with
          now := s.now + dt
          nodes := fun i => { s.nodes i with now := (s.nodes i).now + dt } } []
  | act {i : ι} {e : Advertiser.Event} {n : Advertiser} {es : List Effect} {ms : List (Flight ι)}
      (he : IsLocal e) (h : Advertiser.Does E I outOfRange (s.nodes i) e n es)
      (hms : M.Carries s.now (s.nodes i).node es ms) :
      Does E I outOfRange M s (.act i e)
        { s with nodes := Function.update s.nodes i n, inFlight := s.inFlight ++ ms } ms
  | deliver {m : Flight ι} {chance : Chance} {n : Advertiser} {es : List Effect}
      {ms : List (Flight ι)} (hm : m ∈ s.inFlight)
      (h : Advertiser.Does E I outOfRange (s.nodes m.destination)
        (.call (.recv chance m.datagram)) n es)
      (hms : M.Carries s.now (s.nodes m.destination).node es ms) :
      Does E I outOfRange M s (.deliver m)
        { s with
          nodes := Function.update s.nodes m.destination n
          inFlight := s.inFlight.erase m ++ ms } ms

def Step (E : Env β) (I : Intervals) (outOfRange : ℚ → UInt32) (M : Medium ι)
    (x : Transition (Fleet ι) (Event ι) (List (Flight ι))) : Prop :=
  Does E I outOfRange M x.pre x.event x.post x.out

/-- Nodes that were not started yet, in plain mode and with addresses of their own. -/
structure Initial (s : Fleet ι) : Prop where
  inFlight : s.inFlight = []
  now : ∀ i, (s.nodes i).now = s.now
  new : ∀ i, Advertiser.New (s.nodes i)
  plain : ∀ i, (s.nodes i).node.securityState = false
  neighbors : ∀ i, (s.nodes i).node.neighbors.table = ∅
  nodesPosition : ∀ i, (s.nodes i).node.nodesPosition.table = ∅
  distinct : ∀ i j a, (s.nodes i).node.HasAddress a → (s.nodes j).node.HasAddress a → i = j

end Fleet

/-! ### What a node sends -/

namespace Effect

/-- A message sent over a socket. -/
def IsSend : Effect → Prop
  | sendTo .. => True
  | _ => False

theorem not_isSend_ofDropped (dropped : List QueueEntry) : ∀ e ∈ ofDropped dropped, ¬ e.IsSend := by
  intro e he
  obtain ⟨q, -, rfl⟩ := List.mem_map.mp he
  exact id

end Effect

/-- The medium has nothing to make of what is no message. -/
theorem Medium.carries_nil {ι : Type} (M : Medium ι) (now : Time) (n : Node) {es : List Effect}
    (h : ∀ e ∈ es, ¬ e.IsSend) : M.Carries now n es [] where
  sent m hm := by cases hm
  heard a bytes hsends := by
    obtain ⟨j, -, -, destination, hsend⟩ := hsends
    exact absurd trivial (h _ hsend)

namespace Node

section
variable {β : Type} [Preorder β] [DecidableLT β] [DecidableEq β] [Zero β] {E : Env β} {now : Time}
  {n m : Node} {es : List Effect}

theorem not_isSend_deferredRouteOutput {p : Packet} {header : Ipv4Header} {ucb ecb : Callback}
    (h : n.deferredRouteOutput now p header ucb ecb = .ok (m, es)) : ∀ e ∈ es, ¬ e.IsSend := by
  obtain ⟨⟨added, queue, dropped⟩, -, h⟩ := bind_eq_ok.mp h
  cases h
  exact Effect.not_isSend_ofDropped _

theorem not_isSend_forwarding {p : Packet} {header : Ipv4Header} {ucb ecb : Callback}
    (h : n.forwarding E now p header ucb ecb = .ok (m, es)) : ∀ e ∈ es, ¬ e.IsSend := by
  unfold forwarding at h
  split at h
  · cases h
    simp [Effect.IsSend]
  · exact not_isSend_deferredRouteOutput h

/-- RouteInput sends no message of the protocol. -/
theorem not_isSend_routeInput {chance : Chance} {p : Packet} {header : Ipv4Header} {iif : ℕ}
    {ucb lcb ecb : Callback} {r : RouteInputResult}
    (h : n.routeInput E now chance p header iif ucb lcb ecb = .ok r) :
    ∀ e ∈ r.effects, ¬ e.IsSend := by
  unfold routeInput at h
  dsimp only at h
  split_ifs at h
  · cases h
    simp
  · obtain ⟨⟨k, es⟩, hk, h⟩ := bind_eq_ok.mp h
    cases h
    exact not_isSend_deferredRouteOutput hk
  · cases h
    simp [localDelivery, Effect.IsSend]
  · obtain ⟨⟨k, es⟩, hk, h⟩ := bind_eq_ok.mp h
    cases h
    exact not_isSend_forwarding hk

theorem not_isSend_sendQueued (dst nextHop myAddress : Ipv4Address) (rounds : ℕ)
    (q : RequestQueue) :
    ∀ e ∈ (sendQueued now dst nextHop myAddress rounds q).2, ¬ e.IsSend := by
  induction rounds generalizing q with
  | zero => simp [sendQueued]
  | succ rounds ih =>
    unfold sendQueued
    split
    · exact Effect.not_isSend_ofDropped _
    · intro e he
      rcases List.mem_append.mp he with he | he
      · exact Effect.not_isSend_ofDropped _ e he
      · rcases List.mem_cons.mp he with rfl | he
        · exact id
        · exact ih _ e he

/-- Neither does CheckQueue. -/
theorem not_isSend_checkQueue :
    ∀ e ∈ (n.checkQueue E now).2.flatMap SendCall.effects, ¬ e.IsSend := by
  intro e he
  obtain ⟨c, hc, he⟩ := List.mem_flatMap.mp he
  obtain ⟨k, dst, -, rfl⟩ := checkQueue_mem hc
  cases hhop : (k.queueNextHop E now dst).1 with
  | none =>
    rw [sendPacketFromQueue_of_none hhop] at he
    cases he
  | some nextHop =>
    rw [sendPacketFromQueue_of_some hhop] at he
    exact not_isSend_sendQueued _ _ _ _ _ e he

end

/-- `m` is `n` after an event at time `now` that is no message of the protocol. -/
structure KeepsTables (now : Time) (n m : Node) : Prop where
  socketAddresses : m.socketAddresses = n.socketAddresses
  neighbors : m.neighbors = n.neighbors ∨ m.neighbors = n.neighbors.purge now
  nodesPosition : m.nodesPosition = n.nodesPosition

theorem KeepsTables.refl (now : Time) (n : Node) : KeepsTables now n n := ⟨rfl, .inl rfl, rfl⟩

theorem Routes.keepsTables {now : Time} {n m : Node} (h : Routes now n m) :
    KeepsTables now n m := by
  refine ⟨?_, h.neighbors, ?_⟩ <;> rw [h.frame]

theorem keepsTables_start (now : Time) (created : Credentials) (generated : Block SHARED_KEY_SIZE)
    (n : Node) : KeepsTables now n (n.start created generated) := by
  unfold start
  dsimp only
  split_ifs <;> exact ⟨rfl, .inl rfl, rfl⟩

/-- The bytes of a HELLO message of the node. -/
def helloMessage (outOfRange : ℚ → UInt32) (n : Node) : Bytes :=
  TypeHeader.serialize ⟨.hello, true⟩ ++ (n.helloHeader outOfRange).serialize

end Node

/-- The bytes of a GSGEOLOCATION message. -/
def GSGeoLocationHeader.message (hdr : GSGeoLocationHeader) : Bytes :=
  TypeHeader.serialize ⟨.gsGeoLocation, true⟩ ++ hdr.serialize

variable {β : Type} [Preorder β] [DecidableLT β] [DecidableEq β] [Zero β] {E : Env β}

theorem Sys.Does.keepsTables {s t : Sys} {e : Event} {o : Output} (h : Does E s e t o)
    (he : ∀ chance d, e ≠ .recv chance d) : s.node.KeepsTables s.now t.node := by
  cases h with
  | advance => exact .refl _ _
  | move => exact ⟨rfl, .inl rfl, rfl⟩
  | recv => exact absurd rfl (he _ _)
  | routeOutput h => exact (Node.routeOutput_routes h).keepsTables
  | routeInput h => exact (Node.routeInput_routes h).keepsTables
  | checkQueue => exact Node.checkQueue_routes.keepsTables
  | authenticationTimer => exact .refl _ _

/-- The routing calls send no message of the protocol. -/
theorem Sys.Does.not_isSend {s t : Sys} {e : Event} {o : Output} (h : Does E s e t o)
    (he : ∀ chance d, e ≠ .recv chance d) (hauth : ∀ chance, e ≠ .authenticationTimer chance) :
    ∀ eff ∈ o.effects, ¬ eff.IsSend := by
  cases h with
  | advance => simp
  | move => simp
  | recv => exact absurd rfl (he _ _)
  | routeOutput => simp
  | routeInput h => exact Node.not_isSend_routeInput h
  | checkQueue => exact Node.not_isSend_checkQueue
  | authenticationTimer => exact absurd rfl (hauth _)

namespace Advertiser

variable {I : Intervals} {outOfRange : ℚ → UInt32} {s t : Advertiser} {e : Event}
  {es : List Effect} {dt : Time}

/-- Only the clock changes the time. -/
theorem Does.now_eq (h : Does E I outOfRange s e t es) (he : ∀ dt, e ≠ .advance dt) :
    t.now = s.now := by
  cases h with
  | advance => exact absurd rfl (he _)
  | start _ _ _ h => exact (start_ok h).2.1
  | helloTimer _ _ h =>
    obtain ⟨-, -, rfl⟩ := helloTimerExpire_ok h
    rfl
  | gsTimer _ _ h =>
    obtain ⟨-, -, rfl⟩ := gsTimerExpire_ok h
    rfl
  | authenticationTimer _ h =>
    obtain ⟨-, rfl⟩ := authenticationTimerExpire_ok h
    rfl
  | call => rfl

theorem Does.nonneg (h : Does E I outOfRange s (.advance dt) t es) : 0 ≤ dt := by
  cases h with
  | advance hnode =>
    cases hnode with
    | advance hdt => exact hdt

theorem ne_recv_of_isLocal {e : SAeroRP.Event} (h : Fleet.IsLocal (.call e)) (chance : Chance)
    (d : Datagram) : e ≠ .recv chance d := by
  rintro rfl
  exact h

theorem Does.keepsTables (h : Does E I outOfRange s e t es) (he : Fleet.IsLocal e) :
    s.node.KeepsTables s.now t.node := by
  cases h with
  | advance => exact .refl _ _
  | start _ _ _ h =>
    rw [(start_ok h).1]
    exact Node.keepsTables_start ..
  | helloTimer _ _ h =>
    obtain ⟨-, -, rfl⟩ := helloTimerExpire_ok h
    exact .refl _ _
  | gsTimer _ _ h =>
    obtain ⟨-, -, rfl⟩ := gsTimerExpire_ok h
    exact .refl _ _
  | authenticationTimer _ h =>
    obtain ⟨-, rfl⟩ := authenticationTimerExpire_ok h
    exact .refl _ _
  | call _ h => exact h.keepsTables (ne_recv_of_isLocal he)

/-- A local event sends nothing unless it is the expiry of a timer. -/
theorem Does.send_cases (h : Does E I outOfRange s e t es) (he : Fleet.IsLocal e)
    {socket : SocketId} {bytes : Bytes} {destination : Ipv4Address}
    (hsend : .sendTo socket bytes destination ∈ es) :
    e = .authenticationTimer ∨ (e = .helloTimer ∧ bytes = s.node.helloMessage outOfRange) ∨
      (e = .gsTimer ∧ ∃ hdr : GSGeoLocationHeader, bytes = hdr.message) := by
  cases h with
  | advance => cases hsend
  | start => cases hsend
  | helloTimer _ _ h =>
    obtain ⟨-, rfl, -⟩ := helloTimerExpire_ok h
    have hhello : .sendTo socket bytes destination ∈ s.node.sendHello outOfRange := by
      rcases List.mem_append.mp hsend with hsend | hsend <;> split_ifs at hsend
      · exact hsend
      · cases hsend
      · exact hsend
      · cases hsend
    obtain ⟨j, -, hj⟩ := List.mem_map.mp hhello
    cases hj
    exact .inr (.inl ⟨rfl, rfl⟩)
  | gsTimer _ _ h =>
    obtain ⟨-, rfl, -⟩ := gsTimerExpire_ok h
    obtain ⟨a, -, hsend⟩ := List.mem_flatMap.mp hsend
    obtain ⟨j, -, hj⟩ := List.mem_map.mp hsend
    cases hj
    exact .inr (.inr ⟨rfl, _, rfl⟩)
  | authenticationTimer => exact .inl rfl
  | call hcall h =>
    refine absurd trivial (h.not_isSend (ne_recv_of_isLocal he) ?_ _ hsend)
    rintro chance rfl
    exact hcall

/-- In plain mode a node sends its HELLO messages from all of its addresses. -/
theorem Does.sends_hello (h : Does E I outOfRange s .helloTimer t es)
    (hplain : s.node.securityState = false) {a : Ipv4Address} (ha : s.node.HasAddress a) :
    s.node.Sends es a (s.node.helloMessage outOfRange) := by
  cases h with
  | helloTimer _ _ h =>
    obtain ⟨-, rfl, -⟩ := helloTimerExpire_ok h
    obtain ⟨j, hj, rfl⟩ := ha
    refine ⟨j, hj, rfl, beaconDestination j.2, List.mem_append_right _ ?_⟩
    rw [if_pos hplain]
    exact List.mem_map.mpr ⟨j, hj, rfl⟩

end Advertiser

end SAeroRP
