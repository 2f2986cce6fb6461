import SAeroRP.System.Run

/-! What the calls of a node leave alone. The routing calls write the queue with
its bookkeeping and the associated data, and purge the neighbour table or leave
it; a control message writes the tables, the shared key and the authentication
status. Nothing rewrites a node's configuration. -/

namespace SAeroRP

open Library

namespace Node

/-! ### Routing calls -/

/-- `m` is `n` after routing calls at time `now`. -/
structure Routes (now : Time) (n m : Node) : Prop where
  frame : m = { n with
    neighbors := m.neighbors
    queue := m.queue
    queuedAddresses := m.queuedAddresses
    checkQueueTimer := m.checkQueueTimer
    gcmAadToBeChecked := m.gcmAadToBeChecked }
  neighbors : m.neighbors = n.neighbors ∨ m.neighbors = n.neighbors.purge now

section
variable {now : Time} {n m k : Node}

theorem Routes.refl (now : Time) (n : Node) : Routes now n n := ⟨rfl, .inl rfl⟩

theorem purge_routes (now : Time) (n : Node) :
    Routes now n { n with neighbors := n.neighbors.purge now } := ⟨rfl, .inr rfl⟩

theorem Routes.trans (h : Routes now n m) (h' : Routes now m k) : Routes now n k := by
  constructor
  · rw [h'.frame, h.frame]
  · rcases h'.neighbors with hk | hk <;> rcases h.neighbors with hm | hm <;> rw [hk, hm]
    · exact .inl rfl
    · exact .inr rfl
    · exact .inr rfl
    · exact .inr (NeighborTable.purge_purge now n.neighbors)

/-- Routing calls and a purge at the same time leave what the purge leaves. -/
theorem Routes.purge_neighbors (h : Routes now n m) :
    m.neighbors.purge now = n.neighbors.purge now := by
  rcases h.neighbors with hm | hm <;> rw [hm]
  exact NeighborTable.purge_purge now n.neighbors

theorem Routes.timely (h : Routes now n m) (hn : EntryTable.Timely now n.neighbors.table) :
    EntryTable.Timely now m.neighbors.table := by
  rcases h.neighbors with hm | hm <;> rw [hm]
  · exact hn
  · exact hn.purge

theorem deferredRouteOutput_routes {p : Packet} {header : Ipv4Header} {ucb ecb : Callback}
    {es : List Effect} (h : n.deferredRouteOutput now p header ucb ecb = .ok (m, es)) :
    Routes now n m := by
  obtain ⟨added, queue, dropped, -, rfl, -⟩ := deferredRouteOutput_ok h
  exact ⟨rfl, .inl rfl⟩

variable {β : Type} [Preorder β] [DecidableLT β] [DecidableEq β] [Zero β] {E : Env β}

variable (E) (now) (n) in
theorem queueNextHop_routes (dst : Ipv4Address) : Routes now n (n.queueNextHop E now dst).2 := by
  rw [queueNextHop_node]
  split_ifs
  · exact .refl now n
  · exact purge_routes now n

theorem forwarding_routes {p : Packet} {header : Ipv4Header} {ucb ecb : Callback}
    {es : List Effect} (h : n.forwarding E now p header ucb ecb = .ok (m, es)) :
    Routes now n m := by
  have hnode := forwardNextHop_node E now header.destination n
  unfold forwarding at h
  split at h <;> rename_i k heq <;> rw [heq] at hnode <;> subst hnode
  · cases h
    exact purge_routes now n
  · exact (purge_routes now n).trans (deferredRouteOutput_routes h)

theorem sendPacketFromQueue_routes (dst : Ipv4Address) :
    Routes now n (n.sendPacketFromQueue E now dst).post := by
  have hhop := queueNextHop_routes now n E dst
  unfold sendPacketFromQueue
  split <;> rename_i k heq <;> rw [heq] at hhop
  · exact hhop
  · exact hhop.trans ⟨rfl, .inl rfl⟩

theorem checkQueueCalls_routes (dsts : List Ipv4Address) :
    Routes now n (checkQueueCalls E now dsts n).1 := by
  induction dsts generalizing n with
  | nil => exact .refl now n
  | cons dst dsts ih => exact (sendPacketFromQueue_routes dst).trans ih

theorem checkQueue_routes : Routes now n (n.checkQueue E now).1 :=
  have hstart : Routes now n { n with checkQueueTimer := none } := ⟨rfl, .inl rfl⟩
  (hstart.trans (checkQueueCalls_routes (E := E) n.queuedAddresses)).trans ⟨rfl, .inl rfl⟩

variable (E) (now) (n) in
/-- A call of SendPacketFromQueue writes the queue and the neighbour table only. -/
theorem sendPacketFromQueue_frame (dst : Ipv4Address) :
    ∃ queue neighbors, (n.sendPacketFromQueue E now dst).post = { n with queue, neighbors } := by
  cases hhop : (n.queueNextHop E now dst).1 with
  | none =>
    rw [sendPacketFromQueue_of_none hhop, queueNextHop_node]
    split_ifs <;> exact ⟨_, _, rfl⟩
  | some nextHop =>
    rw [sendPacketFromQueue_of_some hhop, queueNextHop_node]
    split_ifs <;> exact ⟨_, _, rfl⟩

variable (E) (now) (n) in
theorem checkQueueCalls_frame (dsts : List Ipv4Address) :
    ∃ queue neighbors, (checkQueueCalls E now dsts n).1 = { n with queue, neighbors } := by
  induction dsts generalizing n with
  | nil => exact ⟨_, _, rfl⟩
  | cons dst dsts ih =>
    obtain ⟨queue, neighbors, hcall⟩ := sendPacketFromQueue_frame now n E dst
    obtain ⟨queue', neighbors', hrest⟩ := ih (n.sendPacketFromQueue E now dst).post
    rw [hcall] at hrest
    refine ⟨queue', neighbors', ?_⟩
    rw [checkQueueCalls]
    dsimp only
    rw [hcall, hrest]

/-- Each call CheckQueue makes is one of a node that routing calls have led to. -/
theorem checkQueueCalls_mem {dsts : List Ipv4Address} {c : SendCall}
    (h : c ∈ (checkQueueCalls E now dsts n).2) :
    ∃ k dst, Routes now n k ∧ c = k.sendPacketFromQueue E now dst := by
  induction dsts generalizing n with
  | nil => cases h
  | cons dst dsts ih =>
    rcases List.mem_cons.mp h with rfl | h
    · exact ⟨n, dst, .refl now n, rfl⟩
    · obtain ⟨k, dst', hk, hc⟩ := ih h
      exact ⟨k, dst', (sendPacketFromQueue_routes dst).trans hk, hc⟩

theorem checkQueue_mem {c : SendCall} (h : c ∈ (n.checkQueue E now).2) :
    ∃ k dst, Routes now n k ∧ c = k.sendPacketFromQueue E now dst := by
  obtain ⟨k, dst, hk, hc⟩ := checkQueueCalls_mem h
  have hstart : Routes now n { n with checkQueueTimer := none } := ⟨rfl, .inl rfl⟩
  exact ⟨k, dst, hstart.trans hk, hc⟩

/-- RouteOutput purges the neighbour table or leaves the node as it is. -/
theorem routeOutput_node {chance : Chance} {p : Option Packet} {header : Ipv4Header}
    {oif : Option NetDevice} {sockerr : SocketErrno} {r : RouteOutputResult}
    (h : n.routeOutput E now chance p header oif sockerr = .ok r) :
    r.node = n ∨ r.node = { n with neighbors := n.neighbors.purge now } := by
  rcases routeOutput_ok h with ⟨-, p', h⟩ | ⟨-, hnode, -⟩
  · rcases routePacket_ok h with ⟨-, h⟩ | ⟨hnode, -, -⟩
    · exact .inr (routeUnicast_ok h).1
    · exact .inl hnode
  · exact .inl hnode

theorem routeOutput_routes {chance : Chance} {p : Option Packet} {header : Ipv4Header}
    {oif : Option NetDevice} {sockerr : SocketErrno} {r : RouteOutputResult}
    (h : n.routeOutput E now chance p header oif sockerr = .ok r) : Routes now n r.node := by
  rcases routeOutput_node h with hnode | hnode <;> rw [hnode]
  · exact .refl now n
  · exact purge_routes now n

theorem routeInput_routes {chance : Chance} {p : Packet} {header : Ipv4Header} {iif : ℕ}
    {ucb lcb ecb : Callback} {r : RouteInputResult}
    (h : n.routeInput E now chance p header iif ucb lcb ecb = .ok r) : Routes now n r.node := by
  have haad : Routes now n { n with
      gcmAadToBeChecked := gcmAad header.source header.destination } := ⟨rfl, .inl rfl⟩
  unfold routeInput at h
  dsimp only at h
  split_ifs at h
  · cases h
    exact haad
  · obtain ⟨⟨k, es⟩, hk, h⟩ := bind_eq_ok.mp h
    cases h
    exact haad.trans (deferredRouteOutput_routes hk)
  · cases h
    exact haad
  · obtain ⟨⟨k, es⟩, hk, h⟩ := bind_eq_ok.mp h
    cases h
    exact haad.trans (forwarding_routes hk)

end

/-! ### Signatures -/

section
variable {β : Type} [Preorder β] [DecidableLT β] [DecidableEq β] [Zero β] {E : Env β} {now : Time}
  {n m : Node} {es : List Effect}

theorem signed_deferredRouteOutput {p : Packet} {header : Ipv4Header} {ucb ecb : Callback}
    (h : n.deferredRouteOutput now p header ucb ecb = .ok (m, es)) : Effect.signed es = [] := by
  obtain ⟨⟨added, queue, dropped⟩, -, h⟩ := bind_eq_ok.mp h
  cases h
  exact Effect.signed_ofDropped _

theorem signed_forwarding {p : Packet} {header : Ipv4Header} {ucb ecb : Callback}
    (h : n.forwarding E now p header ucb ecb = .ok (m, es)) : Effect.signed es = [] := by
  unfold forwarding at h
  split at h
  · cases h
    rfl
  · exact signed_deferredRouteOutput h

/-- RouteInput signs nothing. -/
theorem signed_routeInput {chance : Chance} {p : Packet} {header : Ipv4Header} {iif : ℕ}
    {ucb lcb ecb : Callback} {r : RouteInputResult}
    (h : n.routeInput E now chance p header iif ucb lcb ecb = .ok r) :
    Effect.signed r.effects = [] := by
  unfold routeInput at h
  dsimp only at h
  split_ifs at h
  · cases h
    rfl
  · obtain ⟨⟨k, es⟩, hk, h⟩ := bind_eq_ok.mp h
    cases h
    exact signed_deferredRouteOutput hk
  · cases h
    rfl
  · obtain ⟨⟨k, es⟩, hk, h⟩ := bind_eq_ok.mp h
    cases h
    exact signed_forwarding hk

theorem signed_sendQueued (dst nextHop myAddress : Ipv4Address) (rounds : ℕ) (q : RequestQueue) :
    Effect.signed (sendQueued now dst nextHop myAddress rounds q).2 = [] := by
  induction rounds generalizing q with
  | zero => rfl
  | succ rounds ih =>
    unfold sendQueued
    split
    · exact Effect.signed_ofDropped _
    · simp [ih]

/-- Neither does CheckQueue. -/
theorem signed_checkQueue :
    Effect.signed ((n.checkQueue E now).2.flatMap SendCall.effects) = [] := by
  rw [Effect.signed, List.filterMap_flatMap, List.flatMap_eq_nil_iff]
  intro c hc
  obtain ⟨k, dst, -, rfl⟩ := checkQueue_mem hc
  cases hhop : (k.queueNextHop E now dst).1 with
  | none =>
    rw [sendPacketFromQueue_of_none hhop]
    rfl
  | some nextHop =>
    rw [sendPacketFromQueue_of_some hhop]
    exact signed_sendQueued ..

end

/-! ### Control messages -/

/-- `m` is `n` after a control message that arrived at time `now`. -/
structure Receives (now : Time) (n m : Node) : Prop where
  frame : m = { n with
    neighbors := m.neighbors
    nodesPosition := m.nodesPosition
    sharedKey := m.sharedKey
    authenticationStatus := m.authenticationStatus }
  neighbors : m.neighbors = n.neighbors ∨
    ∃ id position velocity, m.neighbors = n.neighbors.addEntry now id position velocity
  nodesPosition : m.nodesPosition = n.nodesPosition ∨
    ∃ id position, m.nodesPosition = n.nodesPosition.addEntry now id position

/-- Two states of one node agree on the outcome of the key exchange. -/
structure SameKeys (n m : Node) : Prop where
  sharedKey : m.sharedKey = n.sharedKey
  authenticationStatus : m.authenticationStatus = n.authenticationStatus

section
variable {β : Type} {E : Env β} {now : Time} {chance : Chance} {d : Datagram} {n m : Node}
  {es : List Effect}

theorem Receives.refl (now : Time) (n : Node) : Receives now n n := ⟨rfl, .inl rfl, .inl rfl⟩

theorem updateFromHello_receives (hdr : HelloHeader) (sender : Ipv4Address) :
    Receives now n (n.updateFromHello now chance sender hdr).1 :=
  ⟨rfl, .inr ⟨_, _, _, rfl⟩, .inl rfl⟩

theorem updateFromGSGeoLocation_receives (hdr : GSGeoLocationHeader) :
    Receives now n (n.updateFromGSGeoLocation now hdr).1 :=
  ⟨rfl, .inl rfl, .inr ⟨_, _, rfl⟩⟩

theorem processReply_receives {hdr : AuthenticationReplyHeader}
    (h : n.processReply E now hdr = .ok (m, es)) : Receives now n m := by
  rcases processReply_ok h with ⟨-, ⟨c, k, -, -, hk, rfl⟩ | ⟨-, rfl⟩⟩
  · obtain ⟨key, rfl⟩ := decryptSharedKey_ok hk
    exact ⟨rfl, .inl rfl, .inl rfl⟩
  · exact ⟨rfl, .inl rfl, .inl rfl⟩

/-- Only a reply writes the shared key or the authentication status. -/
theorem recvMessage_receives {type : MessageType}
    (h : n.recvMessage E now chance type d = .ok (m, es)) :
    Receives now n m ∧ (type ≠ .authenticationReply → SameKeys n m) := by
  cases type with
  | gsTopology =>
    cases h
    exact ⟨.refl now n, fun _ => ⟨rfl, rfl⟩⟩
  | hello =>
    obtain ⟨⟨hdr, rest⟩, -, h⟩ := bind_eq_ok.mp h
    cases h
    exact ⟨updateFromHello_receives hdr d.sender, fun _ => ⟨rfl, rfl⟩⟩
  | gsGeoLocation =>
    obtain ⟨⟨hdr, rest⟩, -, h⟩ := bind_eq_ok.mp h
    cases h
    exact ⟨updateFromGSGeoLocation_receives hdr, fun _ => ⟨rfl, rfl⟩⟩
  | authenticationRequest =>
    obtain ⟨⟨hdr, rest⟩, -, h⟩ := bind_eq_ok.mp h
    rw [(processRequest_ok h).1]
    exact ⟨.refl now n, fun _ => ⟨rfl, rfl⟩⟩
  | authenticationReply =>
    obtain ⟨⟨hdr, rest⟩, -, h⟩ := bind_eq_ok.mp h
    exact ⟨processReply_receives h, fun hne => absurd rfl hne⟩
  | secureHello =>
    obtain ⟨_, -, h⟩ := bind_eq_ok.mp h
    unfold processSecureHello at h
    split_ifs at h
    · cases h
      exact ⟨.refl now n, fun _ => ⟨rfl, rfl⟩⟩
    · obtain ⟨⟨hdr, rest⟩, -, h⟩ := bind_eq_ok.mp h
      cases h
      exact ⟨updateFromHello_receives hdr d.sender, fun _ => ⟨rfl, rfl⟩⟩
  | secureGSGeoLocation =>
    obtain ⟨_, -, h⟩ := bind_eq_ok.mp h
    unfold processSecureGSGeoLocation at h
    split_ifs at h
    · cases h
      exact ⟨.refl now n, fun _ => ⟨rfl, rfl⟩⟩
    · obtain ⟨⟨hdr, rest⟩, -, h⟩ := bind_eq_ok.mp h
      cases h
      exact ⟨updateFromGSGeoLocation_receives hdr, fun _ => ⟨rfl, rfl⟩⟩

theorem recvAERORP_receives (h : n.recvAERORP E now chance d = .ok (m, es)) :
    Receives now n m := by
  rcases recvAERORP_ok h with ⟨rfl, -⟩ | ⟨type, -, -, h⟩
  · exact .refl now m
  · exact (recvMessage_receives h).1

theorem recvAERORP_sameKeys (h : n.recvAERORP E now chance d = .ok (m, es))
    (hreply : d.reply = none) : SameKeys n m := by
  rcases recvAERORP_ok h with ⟨rfl, -⟩ | ⟨type, ht, -, h⟩
  · exact ⟨rfl, rfl⟩
  · refine (recvMessage_receives h).2 ?_
    rintro rfl
    obtain ⟨⟨hdr, rest⟩, hread, -⟩ := bind_eq_ok.mp h
    rw [Datagram.reply_of_removeHeader ht hread] at hreply
    cases hreply

end

end Node

/-! ### Steps -/

/-- Two states of one node agree on what it was configured with. -/
structure Node.SameConfig (n m : Node) : Prop where
  ipv4 : m.ipv4 = n.ipv4
  nodeId : m.nodeId = n.nodeId
  isGroundStation : m.isGroundStation = n.isGroundStation
  securityState : m.securityState = n.securityState
  credentials : m.credentials = n.credentials

theorem Node.Routes.sameConfig {now : Time} {n m : Node} (h : Routes now n m) :
    SameConfig n m := by
  rw [h.frame]
  exact ⟨rfl, rfl, rfl, rfl, rfl⟩

theorem Node.Routes.sameKeys {now : Time} {n m : Node} (h : Routes now n m) : SameKeys n m := by
  rw [h.frame]
  exact ⟨rfl, rfl⟩

theorem Node.Receives.sameConfig {now : Time} {n m : Node} (h : Receives now n m) :
    SameConfig n m := by
  rw [h.frame]
  exact ⟨rfl, rfl, rfl, rfl, rfl⟩

namespace Sys

/-- The clock has not run backwards from 0, and no table entry is from the
future. -/
structure Timely (s : Sys) : Prop where
  now : 0 ≤ s.now
  neighbors : EntryTable.Timely s.now s.node.neighbors.table
  nodesPosition : EntryTable.Timely s.now s.node.nodesPosition.table

variable {β : Type} [Preorder β] [DecidableLT β] [DecidableEq β] [Zero β] {E : Env β} {s t : Sys}
  {e : Event} {o : Output}

/-- The state after a routing call. -/
theorem Timely.of_routes {m : Node} (hs : s.Timely) (h : s.node.Routes s.now m) :
    Timely { s with node := m } := by
  refine ⟨hs.now, h.timely hs.neighbors, ?_⟩
  rw [h.frame]
  exact hs.nodesPosition

/-- The state after a control message. -/
theorem Timely.of_receives {m : Node} (hs : s.Timely) (h : s.node.Receives s.now m) :
    Timely { s with node := m } := by
  refine ⟨hs.now, ?_, ?_⟩
  · rcases h.neighbors with hn | ⟨id, position, velocity, hn⟩ <;> simp only [hn]
    · exact hs.neighbors
    · exact hs.neighbors.addEntry hs.now id _
  · rcases h.nodesPosition with hp | ⟨id, position, hp⟩ <;> simp only [hp]
    · exact hs.nodesPosition
    · exact hs.nodesPosition.addEntry hs.now id _

theorem Does.timely (h : Does E s e t o) (hs : s.Timely) : t.Timely := by
  cases h with
  | @advance dt hdt htimer =>
    have hle : s.now ≤ s.now + dt := by linarith
    exact ⟨hs.now.trans hle, hs.neighbors.mono hle, hs.nodesPosition.mono hle⟩
  | move => exact ⟨hs.now, hs.neighbors, hs.nodesPosition⟩
  | recv h => exact hs.of_receives (Node.recvAERORP_receives h)
  | routeOutput h => exact hs.of_routes (Node.routeOutput_routes h)
  | routeInput h => exact hs.of_routes (Node.routeInput_routes h)
  | checkQueue => exact hs.of_routes Node.checkQueue_routes
  | authenticationTimer => exact hs

theorem Does.sameConfig (h : Does E s e t o) : s.node.SameConfig t.node := by
  cases h with
  | advance => exact ⟨rfl, rfl, rfl, rfl, rfl⟩
  | move => exact ⟨rfl, rfl, rfl, rfl, rfl⟩
  | recv h => exact (Node.recvAERORP_receives h).sameConfig
  | routeOutput h => exact (Node.routeOutput_routes h).sameConfig
  | routeInput h => exact (Node.routeInput_routes h).sameConfig
  | checkQueue => exact Node.checkQueue_routes.sameConfig
  | authenticationTimer => exact ⟨rfl, rfl, rfl, rfl, rfl⟩

/-- Only a control message writes the shared key or the authentication status. -/
theorem Does.sameKeys (h : Does E s e t o) (he : ∀ chance d, e ≠ .recv chance d) :
    s.node.SameKeys t.node := by
  cases h with
  | advance => exact ⟨rfl, rfl⟩
  | move => exact ⟨rfl, rfl⟩
  | recv => exact absurd rfl (he _ _)
  | routeOutput h => exact (Node.routeOutput_routes h).sameKeys
  | routeInput h => exact (Node.routeInput_routes h).sameKeys
  | checkQueue => exact Node.checkQueue_routes.sameKeys
  | authenticationTimer => exact ⟨rfl, rfl⟩

/-- The calls a step shows are calls of a node that routing calls have led to. -/
theorem calls_of_step {x : Transition Sys Event Output} (hx : Step E x) (c : SendCall)
    (hc : c ∈ x.out.calls) :
    ∃ k dst, x.pre.node.Routes x.pre.now k ∧ c = k.sendPacketFromQueue E x.pre.now dst := by
  obtain ⟨s, e, o, t⟩ := x
  have hdoes : Does E s e t o := hx
  cases hdoes with
  | checkQueue => exact Node.checkQueue_mem hc
  | _ => cases hc

theorem step_timely (x : Transition Sys Event Output) (hx : Step E x) (hs : x.pre.Timely) :
    x.post.Timely := Does.timely hx hs

theorem step_securityState {b : Bool} (x : Transition Sys Event Output) (hx : Step E x)
    (hs : x.pre.node.securityState = b) : x.post.node.securityState = b :=
  (Does.sameConfig hx).securityState.trans hs

end Sys

end SAeroRP
