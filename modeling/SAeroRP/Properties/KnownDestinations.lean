import SAeroRP.System.Sample

/-! Greedy forwarding toward known destinations. RouteOutput and SendPacketFromQueue
take whatever GetPosition returns: the position of an entry of any age, or the
vector (-1, -1, 0) for an address the table does not hold. Whether the packet is
then sent depends on the neighbours alone, and not on what is known of the
destination. -/

namespace SAeroRP.KnownDestinations

open Library Node

variable {β : Type} [Preorder β] [DecidableLT β] [DecidableEq β] [Zero β]

/-! ### Decisions -/

/-- No unexpired neighbour beats the node itself toward the position the table
gives for the destination. -/
def NoBetter (E : Env β) (now : Time) (dst : Ipv4Address) (n : Node) : Prop :=
  ∀ c ∈ (n.neighbors.purge now).candidates E.tti (n.nodesPosition.getPosition dst),
    ¬ NeighborTable.Beats c.2
      (E.tti (n.nodesPosition.getPosition dst) n.position n.velocity n.neighbors.range)

/-- The destination's position is fresh, or the destination is among the neighbours
`seen`, or no neighbour is better than the node itself. -/
def KnowsWay (E : Env β) (now : Time) (dst : Ipv4Address) (seen : NeighborTable) (n : Node) :
    Prop :=
  n.nodesPosition.Fresh now dst ∨ seen.isNeighbour dst = true ∨ NoBetter E now dst n

section
variable {E : Env β} {now : Time} {dst a : Ipv4Address} {seen : NeighborTable} {n : Node}

theorem bestToward_of_noBetter (h : NoBetter E now dst n) :
    n.bestToward E now (n.nodesPosition.getPosition dst) = Ipv4Address.getZero :=
  NeighborTable.bestNeighbor_eq_zero _ _ _ _ _ _ h

/-- With a better neighbour, and only plain addresses in the table, one is chosen. -/
theorem noBetter_of_bestToward
    (h : (n.neighbors.purge now).isNeighbour
      (n.bestToward E now (n.nodesPosition.getPosition dst)) = false) : NoBetter E now dst n := by
  intro c hc hbeats
  obtain ⟨v, hv, -⟩ := NeighborTable.bestNeighbor_of_beats E.tti now n.neighbors _ n.position
    n.velocity ⟨c, hc, hbeats⟩
  rw [bestToward, NeighborTable.isNeighbour_of_candidate hv] at h
  cases h

/-- Toward a destination of which nothing is known no neighbour is chosen. -/
theorem KnowsWay.bestToward_eq_zero (h : KnowsWay E now dst seen n)
    (hstale : ¬ n.nodesPosition.Fresh now dst) (hno : ¬ seen.isNeighbour dst = true) :
    n.bestToward E now (n.nodesPosition.getPosition dst) = Ipv4Address.getZero := by
  rcases h with h | h | h
  · exact absurd h hstale
  · exact absurd h hno
  · exact bestToward_of_noBetter h

/-- The way is known if the neighbour that is chosen otherwise is none. -/
theorem knowsWay_of_bestToward (h : ¬ n.nodesPosition.Fresh now dst →
    ¬ seen.isNeighbour dst = true → (n.neighbors.purge now).isNeighbour
      (n.bestToward E now (n.nodesPosition.getPosition dst)) = false) :
    KnowsWay E now dst seen n := by
  by_contra hway
  unfold KnowsWay at hway
  push Not at hway
  obtain ⟨hstale, hno, hbetter⟩ := hway
  exact hbetter (noBetter_of_bestToward (h hstale hno))

theorem outputNextHop_of_knowsWay (h : KnowsWay E now dst (n.neighbors.purge now) n)
    (hstale : ¬ n.nodesPosition.Fresh now dst) :
    (n.outputNextHop E now dst).1 = none ∨
      (n.outputNextHop E now dst).1 = some dst ∧
        (n.neighbors.purge now).isNeighbour dst = true := by
  rw [outputNextHop_eq]
  split_ifs with hown hneighbour hzero hbest
  · exact .inl rfl
  · exact .inr ⟨rfl, hneighbour⟩
  · exact .inl rfl
  · exact absurd (h.bestToward_eq_zero hstale hneighbour) hbest
  · exact .inl rfl

theorem queueNextHop_of_knowsWay (h : KnowsWay E now dst n.neighbors n)
    (hstale : ¬ n.nodesPosition.Fresh now dst) :
    (n.queueNextHop E now dst).1 = none ∨
      (n.queueNextHop E now dst).1 = some dst ∧ n.neighbors.isNeighbour dst = true := by
  rw [queueNextHop_eq]
  split_ifs with hneighbour hbest
  · exact .inr ⟨rfl, hneighbour⟩
  · exact absurd (h.bestToward_eq_zero hstale hneighbour) hbest
  · exact .inl rfl

end

/-! ### Calls -/

/-- RouteOutput is asked to route a packet with the header over the data
interface. -/
def Asks (x : Transition Sys Event Output) (header : Ipv4Header) : Prop :=
  (∃ chance p oif sockerr, x.event = .routeOutput chance (some p) header oif sockerr) ∧
    x.pre.node.RoutesUnicast header

/-- A next hop other than the destination is chosen only while the destination's
position is fresh; a packet for another destination that is no neighbour is
deferred, or stays in the queue. -/
structure KnownOrDeferred (x : Transition Sys Event Output) : Prop where
  routed : ∀ header r, Asks x header → x.out.routed = some r → ∀ a, r.nextHop = some a →
    a ≠ header.destination → x.pre.node.nodesPosition.Fresh x.pre.now header.destination
  deferred : ∀ header r, Asks x header → x.out.routed = some r →
    ¬ x.pre.node.nodesPosition.Fresh x.pre.now header.destination →
    (x.pre.node.neighbors.purge x.pre.now).isNeighbour header.destination = false → r.Deferred
  sent : ∀ c ∈ x.out.calls, ∀ a ∈ Effect.gateways c.effects, a ≠ c.dst →
    c.pre.nodesPosition.Fresh x.pre.now c.dst
  kept : ∀ c ∈ x.out.calls, ¬ c.pre.nodesPosition.Fresh x.pre.now c.dst →
    c.pre.neighbors.isNeighbour c.dst = false → c.sent = false ∧ c.post.queue = c.pre.queue

/-- Every decision of a transition is made where the way is known. -/
structure WayKnown (E : Env β) (x : Transition Sys Event Output) : Prop where
  routed : ∀ header, Asks x header → KnowsWay E x.pre.now header.destination
    (x.pre.node.neighbors.purge x.pre.now) x.pre.node
  sent : ∀ c ∈ x.out.calls, KnowsWay E x.pre.now c.dst c.pre.neighbors c.pre

/-- The table holds neither 0.0.0.0 nor the node's own address. -/
def PlainTable (now : Time) (n : Node) : Prop :=
  (n.neighbors.purge now).isNeighbour Ipv4Address.getZero = false ∧
    (n.neighbors.purge now).isNeighbour n.myAddress = false

section
variable {E : Env β} {now : Time} {dst : Ipv4Address} {n : Node}

theorem call_sent (h : KnowsWay E now dst n.neighbors n) :
    ∀ a ∈ Effect.gateways (n.sendPacketFromQueue E now dst).effects, a ≠ dst →
      n.nodesPosition.Fresh now dst := by
  intro a ha hne
  by_contra hstale
  rcases queueNextHop_of_knowsWay h hstale with hhop | ⟨hhop, -⟩
  · rw [sendPacketFromQueue_of_none hhop] at ha
    cases ha
  · rw [sendPacketFromQueue_of_some hhop] at ha
    exact hne (gateways_sendQueued _ _ _ _ _ _ a ha)

theorem call_kept (h : KnowsWay E now dst n.neighbors n)
    (hstale : ¬ n.nodesPosition.Fresh now dst) (hno : n.neighbors.isNeighbour dst = false) :
    (n.sendPacketFromQueue E now dst).sent = false ∧
      (n.sendPacketFromQueue E now dst).post.queue = n.queue := by
  rcases queueNextHop_of_knowsWay h hstale with hhop | ⟨-, hyes⟩
  · rw [sendPacketFromQueue_of_none hhop, queueNextHop_node, if_neg (by simp [hno])]
    exact ⟨rfl, rfl⟩
  · rw [hno] at hyes
    cases hyes

/-- A packet that stays in the queue although nothing is known of its destination
stays there because no neighbour is better. -/
theorem knowsWay_of_kept (hplain : PlainTable now n)
    (h : ¬ n.nodesPosition.Fresh now dst → n.neighbors.isNeighbour dst = false →
      (n.sendPacketFromQueue E now dst).sent = false) : KnowsWay E now dst n.neighbors n := by
  refine knowsWay_of_bestToward fun hstale hno => ?_
  have hhop := queueNextHop_eq E now dst n
  rw [if_neg hno] at hhop
  split_ifs at hhop with hbest
  · have hsent := h hstale (by simpa using hno)
    rw [sendPacketFromQueue_of_some hhop] at hsent
    cases hsent
  · rw [not_not.mp hbest]
    exact hplain.1

theorem knowsWay_of_deferred (hplain : PlainTable now n)
    (h : ¬ n.nodesPosition.Fresh now dst → (n.neighbors.purge now).isNeighbour dst = false →
      (n.outputNextHop E now dst).1 = none) : KnowsWay E now dst (n.neighbors.purge now) n := by
  refine knowsWay_of_bestToward fun hstale hno => ?_
  have hhop := h hstale (by simpa using hno)
  rw [outputNextHop_eq, if_neg hno] at hhop
  split_ifs at hhop with hown hbest
  · rw [hown]
    exact hplain.2
  · rw [not_not.mp hbest]
    exact hplain.1

end

theorem routed_of_asks {E : Env β} {x : Transition Sys Event Output} {header : Ipv4Header}
    (hx : Sys.Step E x) (hasks : Asks x header) : ∃ r, x.out.routed = some r := by
  obtain ⟨⟨chance, p, oif, sockerr, he⟩, -⟩ := hasks
  obtain ⟨s, e, o, t⟩ := x
  have hdoes : Sys.Does E s e t o := hx
  cases he
  cases hdoes with
  | routeOutput h => exact ⟨_, rfl⟩

theorem routeUnicast_of_asks {E : Env β} {x : Transition Sys Event Output} {header : Ipv4Header}
    {r : RouteOutputResult} (hx : Sys.Step E x) (hasks : Asks x header)
    (hr : x.out.routed = some r) :
    ∃ p oif, x.pre.node.routeUnicast E x.pre.now p header oif = .ok r := by
  obtain ⟨⟨chance, p, oif, sockerr, he⟩, hunicast⟩ := hasks
  obtain ⟨s, e, o, t⟩ := x
  have hdoes : Sys.Does E s e t o := hx
  cases he
  cases hdoes with
  | routeOutput h =>
    cases hr
    rcases routeOutput_ok h with ⟨-, p', h⟩ | ⟨hp, -⟩
    · exact ⟨p', oif, routeUnicast_of_routePacket hunicast h⟩
    · cases hp

/-! ### Runs -/

theorem knownOrDeferred_of_wayKnown {E : Env β} {x : Transition Sys Event Output}
    (hx : Sys.Step E x) (h : WayKnown E x) : KnownOrDeferred x := by
  have hcall : ∀ c ∈ x.out.calls, ∃ k dst, c = k.sendPacketFromQueue E x.pre.now dst ∧
      KnowsWay E x.pre.now dst k.neighbors k := by
    intro c hc
    have hway := h.sent c hc
    obtain ⟨k, dst, -, rfl⟩ := Sys.calls_of_step hx c hc
    rw [sendPacketFromQueue_pre, sendPacketFromQueue_dst] at hway
    exact ⟨k, dst, rfl, hway⟩
  refine ⟨?_, ?_, ?_, ?_⟩
  · intro header r hasks hr a ha hne
    by_contra hstale
    obtain ⟨p, oif, hroute⟩ := routeUnicast_of_asks hx hasks hr
    obtain ⟨-, ⟨-, hdeferred, -⟩ | ⟨hsome, -, -, hhop⟩⟩ := routeUnicast_ok hroute
    · rw [hdeferred.nextHop] at ha
      cases ha
    · rw [hhop] at ha
      split_ifs at ha
      rcases outputNextHop_of_knowsWay (h.routed header hasks) hstale with hnone | ⟨hdst, -⟩
      · exact hsome hnone
      · rw [hdst] at ha
        exact hne (Option.some.inj ha).symm
  · intro header r hasks hr hstale hno
    obtain ⟨p, oif, hroute⟩ := routeUnicast_of_asks hx hasks hr
    obtain ⟨-, ⟨-, hdeferred, -⟩ | ⟨hsome, -⟩⟩ := routeUnicast_ok hroute
    · exact hdeferred
    · rcases outputNextHop_of_knowsWay (h.routed header hasks) hstale with hnone | ⟨-, hyes⟩
      · exact absurd hnone hsome
      · rw [hno] at hyes
        cases hyes
  · intro c hc
    obtain ⟨k, dst, rfl, hway⟩ := hcall c hc
    rw [sendPacketFromQueue_pre, sendPacketFromQueue_dst]
    exact call_sent hway
  · intro c hc
    obtain ⟨k, dst, rfl, hway⟩ := hcall c hc
    rw [sendPacketFromQueue_pre, sendPacketFromQueue_dst]
    exact call_kept hway

theorem wayKnown_of_knownOrDeferred {E : Env β} {x : Transition Sys Event Output}
    (hx : Sys.Step E x) (hplain : PlainTable x.pre.now x.pre.node) (h : KnownOrDeferred x) :
    WayKnown E x := by
  constructor
  · intro header hasks
    refine knowsWay_of_deferred hplain fun hstale hno => ?_
    obtain ⟨r, hr⟩ := routed_of_asks hx hasks
    obtain ⟨p, oif, hroute⟩ := routeUnicast_of_asks hx hasks hr
    obtain ⟨-, ⟨hnone, -⟩ | ⟨-, hnot, -⟩⟩ := routeUnicast_ok hroute
    · exact hnone
    · exact absurd (h.deferred header r hasks hr hstale hno) hnot
  · intro c hc
    have hkept := h.kept c hc
    obtain ⟨k, dst, hk, rfl⟩ := Sys.calls_of_step hx c hc
    rw [sendPacketFromQueue_pre, sendPacketFromQueue_dst] at hkept ⊢
    have hplain' : PlainTable x.pre.now k := by
      unfold PlainTable
      rw [hk.purge_neighbors, hk.frame]
      exact hplain
    exact knowsWay_of_kept hplain' fun hstale hno => (hkept hstale hno).1

/-- Along a run, a transition whose decisions are made where the way is known keeps
to known destinations; with plain addresses in the table, no other does. -/
theorem known_or_deferred_run (E : Env β) (s u : Sys) (tr : List (Transition Sys Event Output))
    (hrun : Run (Sys.Step E) s tr u) :
    ∀ x ∈ tr, (WayKnown E x → KnownOrDeferred x) ∧
      (PlainTable x.pre.now x.pre.node → KnownOrDeferred x → WayKnown E x) :=
  fun x hx => ⟨knownOrDeferred_of_wayKnown (hrun.step_of_mem x hx),
    wayKnown_of_knownOrDeferred (hrun.step_of_mem x hx)⟩

/-! ### A packet for nowhere -/

/-- RouteOutput has a next hop for a destination of which nothing is known. -/
def strays (x : Transition Sys Event Output) : Bool :=
  match x.event, x.out.routed with
  | .routeOutput _ (some _) header _ _, some r =>
    x.pre.node.RoutesUnicast header ∧ r.nextHop.any (· ≠ header.destination) ∧
      ¬ x.pre.node.nodesPosition.Fresh x.pre.now header.destination
  | _, _ => false

theorem not_knownOrDeferred_of_strays {x : Transition Sys Event Output} (h : strays x = true) :
    ¬ KnownOrDeferred x := by
  intro hknown
  unfold strays at h
  split at h
  · rename_i chance p header oif sockerr r he hr
    obtain ⟨hunicast, hhop, hstale⟩ := of_decide_eq_true h
    obtain ⟨a, ha, hne⟩ := (Option.any_eq_true _ _).mp hhop
    exact hstale (hknown.routed header r ⟨⟨chance, p, oif, sockerr, he⟩, hunicast⟩ hr a ha
      (of_decide_eq_true hne))
  · cases h

/-- 10.1.1.9 is at the origin and has the velocity (0, 2, 0). -/
def greeting : HelloHeader := ⟨0, 0, 0, 0, 0, 2, 0⟩

/-- The node moves, hears 10.1.1.9 and routes a packet to 10.1.1.7, from which
nothing was heard. -/
def stray : List Event :=
  [.move ⟨5, 0, 0⟩ ⟨0, 1, 0⟩, .recv Sample.chance (Sample.datagram .hello greeting.serialize),
    .routeOutput Sample.chance (some ⟨[], 5, false⟩) ⟨.ofOctets 10 1 1 2, .ofOctets 10 1 1 7⟩ none
      .errorNotError]

theorem stray_strays : ∃ tr u, Sys.execute Sample.env Sample.initial stray = some (tr, u) ∧
    ∃ x ∈ tr, strays x = true :=
  Sys.exists_of_execute (by decide +kernel)

theorem known_or_deferred_run_sample :
    ∃ tr u, Sys.execute Sample.env Sample.initial stray = some (tr, u) ∧
      ∀ x ∈ tr, (WayKnown Sample.env x → KnownOrDeferred x) ∧
        (PlainTable x.pre.now x.pre.node → KnownOrDeferred x → WayKnown Sample.env x) := by
  obtain ⟨tr, u, h, -⟩ := stray_strays
  exact ⟨tr, u, h, known_or_deferred_run _ _ u tr (Sys.run_of_execute h)⟩

/-- The packet is sent to 10.1.1.9, which has (-1, -1, 0) in its range earlier. -/
theorem unknown_destination_forwarded :
    ¬ ∀ (E : Env ℚ) (s u : Sys) (tr : List (Transition Sys Event Output)),
      Run (Sys.Step E) s tr u → s.Timely → ∀ x ∈ tr, KnownOrDeferred x := by
  intro h
  obtain ⟨tr, u, hexec, x, hx, hstrays⟩ := stray_strays
  exact not_knownOrDeferred_of_strays hstrays
    (h _ _ u tr (Sys.run_of_execute hexec) Sample.initial_timely x hx)

end SAeroRP.KnownDestinations
