import SAeroRP.System.Sample

/-! The neighbours packets are handed to. RouteOutput and Forwarding decide over a
table they have purged, so a gateway of theirs was heard less than a life time
ago. SendPacketFromQueue asks for the destination itself before any purge, and
hands the packets it holds to a neighbour that may have been silent for longer. -/

namespace SAeroRP.LiveGateways

open Library Node

variable {β : Type} [Preorder β] [DecidableLT β] [DecidableEq β] [Zero β]

/-! ### Decisions -/

section
variable {E : Env β} {now : Time} {dst a : Ipv4Address} {n : Node}

theorem isNeighbour_of_outputNextHop (h : (n.outputNextHop E now dst).1 = some a) :
    (n.neighbors.purge now).isNeighbour a = true := by
  rw [outputNextHop_eq] at h
  split_ifs at h with hown hneighbour hzero hbest
  · cases h
    exact hneighbour
  · cases h
    exact isNeighbour_bestToward hbest

theorem isNeighbour_of_forwardNextHop (h : (n.forwardNextHop E now dst).1 = some a) :
    (n.neighbors.purge now).isNeighbour a = true := by
  rw [forwardNextHop_eq] at h
  split_ifs at h with hneighbour hbest
  · cases h
    exact hneighbour
  · cases h
    exact isNeighbour_bestToward hbest

/-- What a purge leaves is live. -/
theorem live_of_isNeighbour (ht : EntryTable.Timely now n.neighbors.table)
    (h : (n.neighbors.purge now).isNeighbour a = true) : (n.neighbors.purge now).Live now a := by
  obtain ⟨e, he⟩ := Option.isSome_iff_exists.mp h
  exact ht.live_of_purge he

end

/-! ### Deferred packets -/

/-- The call finds its destination in the table although it is not live, and
holds packets for it. -/
def StaleDestination (now : Time) (c : SendCall) : Prop :=
  c.pre.neighbors.isNeighbour c.dst = true ∧ ¬ c.pre.neighbors.Live now c.dst ∧
    c.pre.queue.Holds now c.dst

instance (now : Time) (c : SendCall) : Decidable (StaleDestination now c) :=
  inferInstanceAs (Decidable (_ ∧ _ ∧ _))

/-- The gateways of a call are live exactly when its destination is not a stale
neighbour. -/
theorem call_live_iff (E : Env β) {now : Time} {n : Node}
    (ht : EntryTable.Timely now n.neighbors.table) (dst : Ipv4Address) :
    (∀ a ∈ Effect.gateways (n.sendPacketFromQueue E now dst).effects,
        (n.sendPacketFromQueue E now dst).post.neighbors.Live now a) ↔
      ¬ StaleDestination now (n.sendPacketFromQueue E now dst) := by
  have hhop := queueNextHop_eq E now dst n
  have hnode := queueNextHop_node E now dst n
  by_cases hneighbour : n.neighbors.isNeighbour dst = true
  · rw [if_pos hneighbour] at hhop hnode
    rw [sendPacketFromQueue_of_some hhop, hnode]
    -- the packets the queue holds go to the destination itself, over the table as it is
    have hgateways :=
      gateways_sendQueued_ne_nil now dst dst n.myAddress n.queue.entries.length n.queue
    have hall := gateways_sendQueued now dst dst n.myAddress (n.queue.entries.length + 1) n.queue
    constructor
    · rintro hlive ⟨-, hstale, hholds⟩
      obtain ⟨a, ha⟩ := List.exists_mem_of_ne_nil _ (hgateways.mpr hholds)
      have hdst := hall a ha
      subst hdst
      exact hstale (hlive a ha)
    · intro hnot a ha
      have hdst := hall a ha
      subst hdst
      by_contra hstale
      exact hnot ⟨hneighbour, hstale, hgateways.mp (List.ne_nil_of_mem ha)⟩
  · have hnotStale : ¬ StaleDestination now (n.sendPacketFromQueue E now dst) := by
      rintro ⟨h, -⟩
      rw [sendPacketFromQueue_pre, sendPacketFromQueue_dst] at h
      exact hneighbour h
    refine iff_of_true ?_ hnotStale
    rw [if_neg hneighbour] at hhop hnode
    split_ifs at hhop with hbest
    · rw [sendPacketFromQueue_of_some hhop, hnode]
      intro a ha
      rw [gateways_sendQueued _ _ _ _ _ _ a ha]
      exact live_of_isNeighbour ht (isNeighbour_bestToward hbest)
    · rw [sendPacketFromQueue_of_none hhop]
      simp [Effect.gateways]

/-! ### Runs -/

/-- Every gateway of a transition is live when it is handed out: that of a route
over the data interface, those of relayed packets and those of queued packets. -/
structure GatewaysLive (x : Transition Sys Event Output) : Prop where
  routed : ∀ r, x.out.routed = some r → ∀ a, r.nextHop = some a →
    r.node.neighbors.Live x.pre.now a
  forwarded : x.event ≠ .checkQueue → ∀ a ∈ Effect.gateways x.out.effects,
    x.post.node.neighbors.Live x.pre.now a
  queued : ∀ c ∈ x.out.calls, ∀ a ∈ Effect.gateways c.effects, c.post.neighbors.Live x.pre.now a

section
variable {E : Env β} {now : Time} {n m : Node} {es : List Effect}

theorem routeOutput_live (ht : EntryTable.Timely now n.neighbors.table) {chance : Chance}
    {p : Option Packet} {header : Ipv4Header} {oif : Option NetDevice} {sockerr : SocketErrno}
    {r : RouteOutputResult} (h : n.routeOutput E now chance p header oif sockerr = .ok r)
    {a : Ipv4Address} (ha : r.nextHop = some a) : r.node.neighbors.Live now a := by
  rcases routeOutput_ok h with ⟨-, p', h⟩ | ⟨-, -, hnone⟩
  · rcases routePacket_ok h with ⟨-, h⟩ | ⟨-, -, hnone⟩
    · obtain ⟨hnode, ⟨-, hdeferred, -⟩ | ⟨-, -, -, hhop⟩⟩ := routeUnicast_ok h
      · rw [hdeferred.nextHop] at ha
        cases ha
      · rw [hhop] at ha
        split_ifs at ha
        rw [hnode]
        exact live_of_isNeighbour ht (isNeighbour_of_outputNextHop ha)
    · rw [hnone] at ha
      cases ha
  · rw [hnone] at ha
    cases ha

theorem forwarding_live (ht : EntryTable.Timely now n.neighbors.table) {p : Packet}
    {header : Ipv4Header} {ucb ecb : Callback}
    (h : n.forwarding E now p header ucb ecb = .ok (m, es)) :
    ∀ a ∈ Effect.gateways es, m.neighbors.Live now a := by
  intro a ha
  rw [forwarding_gateways h, Option.mem_toList] at ha
  have hneighbour := isNeighbour_of_forwardNextHop ha
  have hm : m.neighbors = n.neighbors.purge now := by
    have hnode := forwardNextHop_node E now header.destination n
    unfold forwarding at h
    split at h <;> rename_i k heq <;> rw [heq] at hnode ha
    · cases h
      exact congrArg Node.neighbors hnode
    · cases ha
  rw [hm]
  exact live_of_isNeighbour ht hneighbour

theorem routeInput_live (ht : EntryTable.Timely now n.neighbors.table) {chance : Chance}
    {p : Packet} {header : Ipv4Header} {iif : ℕ} {ucb lcb ecb : Callback} {r : RouteInputResult}
    (h : n.routeInput E now chance p header iif ucb lcb ecb = .ok r) :
    ∀ a ∈ Effect.gateways r.effects, r.node.neighbors.Live now a := by
  unfold routeInput at h
  dsimp only at h
  split_ifs at h
  · cases h
    simp [Effect.gateways]
  · obtain ⟨⟨k, es⟩, hk, h⟩ := bind_eq_ok.mp h
    cases h
    rw [deferredRouteOutput_gateways hk]
    simp
  · cases h
    simp [Effect.gateways, localDelivery]
  · obtain ⟨⟨k, es⟩, hk, h⟩ := bind_eq_ok.mp h
    cases h
    exact forwarding_live (n := { n with
      gcmAadToBeChecked := gcmAad header.source header.destination }) ht hk

omit [Preorder β] [DecidableLT β] [DecidableEq β] [Zero β] in
/-- Control messages are answered over sockets, not over routes. -/
theorem recvAERORP_gateways {chance : Chance} {d : Datagram}
    (h : n.recvAERORP E now chance d = .ok (m, es)) : Effect.gateways es = [] := by
  rcases recvAERORP_effects h with rfl | ⟨_, _, _, rfl⟩ | ⟨_, _, _, rfl⟩ | ⟨_, _, _, -, -, -, hsend⟩
  · rfl
  · rfl
  · rfl
  · obtain ⟨c, message, -, rfl⟩ := sendAuthenticationReplyPacket_ok hsend
    simp

theorem gatewaysLive_iff {x : Transition Sys Event Output} (hx : Sys.Step E x)
    (hs : x.pre.Timely) :
    GatewaysLive x ↔ ∀ c ∈ x.out.calls, ¬ StaleDestination x.pre.now c := by
  obtain ⟨s, e, o, t⟩ := x
  have hdoes : Sys.Does E s e t o := hx
  have hcalls : ∀ c ∈ o.calls, (∀ a ∈ Effect.gateways c.effects, c.post.neighbors.Live s.now a) ↔
      ¬ StaleDestination s.now c := by
    intro c hc
    obtain ⟨k, dst, hk, rfl⟩ := Sys.calls_of_step hx c hc
    exact call_live_iff E (hk.timely hs.neighbors) dst
  constructor
  · intro h c hc
    exact (hcalls c hc).mp (h.queued c hc)
  · intro h
    refine ⟨?_, ?_, fun c hc => (hcalls c hc).mpr (h c hc)⟩
    · rintro r hr a ha
      cases hdoes with
      | routeOutput hroute =>
        cases hr
        exact routeOutput_live hs.neighbors hroute ha
      | _ => cases hr
    · intro he a ha
      cases hdoes with
      | recv hrecv =>
        rw [recvAERORP_gateways hrecv] at ha
        cases ha
      | routeInput hroute => exact routeInput_live hs.neighbors hroute a ha
      | checkQueue => exact absurd rfl he
      | authenticationTimer hsend =>
        obtain ⟨c, message, -, rfl⟩ := sendAuthenticationRequestPacket_ok hsend
        simp at ha
      | _ => cases ha

/-- Along a run, the gateways of a transition are live exactly when no call of
SendPacketFromQueue has a stale neighbour for its destination. -/
theorem gateways_live_run_iff (E : Env β) (s u : Sys) (tr : List (Transition Sys Event Output))
    (hrun : Run (Sys.Step E) s tr u) (hs : s.Timely) :
    ∀ x ∈ tr, GatewaysLive x ↔ ∀ c ∈ x.out.calls, ¬ StaleDestination x.pre.now c :=
  hrun.forall_transition Sys.step_timely (fun _ => gatewaysLive_iff) hs

end

/-! ### A silent neighbour -/

/-- A packet for 10.1.1.9 is deferred at once and stays deferred at 0.5 s. That
node is heard at 10 s, and CheckQueue runs again at 60.5 s. -/
def silence : List Event :=
  [.routeInput Sample.chance ⟨[], 5, true⟩ ⟨.ofOctets 10 1 1 2, .ofOctets 10 1 1 9⟩ 0 0 0 0,
    .advance (Time.milliSeconds 500), .checkQueue, .advance (Time.milliSeconds 9500),
    .recv Sample.chance (Sample.datagram .hello (List.replicate 25 0)),
    .advance (Time.milliSeconds 50500), .checkQueue]

/-- The second run of CheckQueue finds that neighbour in the table. -/
theorem silence_stale : ∃ tr u, Sys.execute Sample.env Sample.initial silence = some (tr, u) ∧
    ∃ x ∈ tr, x.out.calls.any (fun c => StaleDestination x.pre.now c) = true :=
  Sys.exists_of_execute (by decide +kernel)

theorem gateways_live_run_iff_sample :
    ∃ tr u, Sys.execute Sample.env Sample.initial silence = some (tr, u) ∧
      ∀ x ∈ tr, GatewaysLive x ↔ ∀ c ∈ x.out.calls, ¬ StaleDestination x.pre.now c := by
  obtain ⟨tr, u, h, -⟩ := silence_stale
  exact ⟨tr, u, h, gateways_live_run_iff _ _ u tr (Sys.run_of_execute h) Sample.initial_timely⟩

/-- The packet is handed to a neighbour that was silent for 50.5 s. -/
theorem silent_neighbour_gets_packet :
    ¬ ∀ (E : Env ℚ) (s u : Sys) (tr : List (Transition Sys Event Output)),
      Run (Sys.Step E) s tr u → s.Timely → ∀ x ∈ tr, GatewaysLive x := by
  intro h
  obtain ⟨tr, u, hexec, x, hx, hany⟩ := silence_stale
  obtain ⟨c, hc, hstale⟩ := List.any_eq_true.mp hany
  have hrun := Sys.run_of_execute hexec
  have hlive := h _ _ u tr hrun Sample.initial_timely x hx
  have hpre := (hrun.invariant Sys.step_timely Sample.initial_timely).2 x hx
  exact (gatewaysLive_iff (hrun.step_of_mem x hx) hpre).mp hlive c hc (of_decide_eq_true hstale)

end SAeroRP.LiveGateways
