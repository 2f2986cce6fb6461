import SAeroRP.Routing.Node

/-! Where a packet goes next: for a packet of the node's own, for a packet it
relays and for a packet it has deferred. Each of the three makes the decision in
its own code, between the destination itself when it is a neighbour, the best
neighbour, and no next hop. A packet without a next hop is deferred: it waits in
the queue until CheckQueueTimer expires. -/

namespace SAeroRP

variable {β : Type} [Preorder β] [DecidableLT β] [DecidableEq β] [Zero β]

/-- A call of SendPacketFromQueue, with the state before it, its result, the
state after it and what it put out. -/
structure SendCall where
  pre : Node
  dst : Ipv4Address
  sent : Bool
  post : Node
  effects : List Effect

/-- The source address of a route: a packet without one gets the node's own. -/
def routeSource (myAddress : Ipv4Address) (header : Ipv4Header) : Ipv4Address :=
  if header.source = Ipv4Address.unset then myAddress else header.source

namespace Node

/-! ### Next hops -/

/-- The next hop of RouteOutput, `none` where the packet is tagged and looped
back. -/
def outputNextHop (E : Env β) (now : Time) (dst : Ipv4Address) (n : Node) :
    Option Ipv4Address × Node :=
  let dstPos := n.nodesPosition.getPosition dst
  let (best, neighbors) := n.neighbors.bestNeighbor E.tti now dstPos n.position n.velocity
  let n := { n with neighbors }
  if best = n.myAddress then (none, n)
  else if n.neighbors.isNeighbour dst then
    (if dst ≠ Ipv4Address.getZero then some dst else none, n)
  else
    let (nextHop, neighbors) := n.neighbors.bestNeighbor E.tti now dstPos n.position n.velocity
    (if nextHop ≠ Ipv4Address.getZero then some nextHop else none, { n with neighbors })

/-- The next hop of Forwarding. GetPosition is called for the destination, but
its result is dropped: the position used is the default vector. -/
def forwardNextHop (E : Env β) (now : Time) (dst : Ipv4Address) (n : Node) :
    Option Ipv4Address × Node :=
  let n := { n with neighbors := n.neighbors.purge now }
  if n.neighbors.isNeighbour dst then (some dst, n)
  else
    let (nextHop, neighbors) :=
      n.neighbors.bestNeighbor E.tti now ⟨0, 0, 0⟩ n.position n.velocity
    (if nextHop ≠ Ipv4Address.getZero then some nextHop else none, { n with neighbors })

/-- The next hop of SendPacketFromQueue. -/
def queueNextHop (E : Env β) (now : Time) (dst : Ipv4Address) (n : Node) :
    Option Ipv4Address × Node :=
  if n.neighbors.isNeighbour dst then (some dst, n)
  else
    let dstPos := n.nodesPosition.getPosition dst
    let (nextHop, neighbors) := n.neighbors.bestNeighbor E.tti now dstPos n.position n.velocity
    (if nextHop ≠ Ipv4Address.getZero then some nextHop else none, { n with neighbors })

/-! ### Deferred packets -/

def deferredRouteOutput (now : Time) (p : Packet) (header : Ipv4Header) (ucb ecb : Callback)
    (n : Node) : Except Fault (Node × List Effect) := do
  let (size, queue, dropped) := n.queue.getSize now
  let n := { n with
    queue
    checkQueueTimer := if size = 0 then some (now + Time.milliSeconds 500) else n.checkQueueTimer }
  let (_, queue, dropped') ← n.queue.enqueue now (QueueEntry.make now p header ucb ecb)
  let n := { n with
    queue
    queuedAddresses := (header.destination :: n.queuedAddresses).destutter (· ≠ ·) }
  return (n, Effect.ofDropped (dropped ++ dropped'))

/-- Forwarding. -/
def forwarding (E : Env β) (now : Time) (p : Packet) (header : Ipv4Header) (ucb ecb : Callback)
    (n : Node) : Except Fault (Node × List Effect) :=
  match n.forwardNextHop E now header.destination with
  | (some nextHop, n) =>
    .ok (n, [.ucb ucb ⟨header.destination, header.source, nextHop, some 1⟩ p header])
  | (none, n) => n.deferredRouteOutput now p header ucb ecb

/-- The loop that hands out the packets for one destination. Each round but the
last takes an entry off the queue, so one round more than its length is enough. -/
def sendQueued (now : Time) (dst nextHop myAddress : Ipv4Address) :
    ℕ → RequestQueue → RequestQueue × List Effect
  | 0, q => (q, [])
  | rounds + 1, q =>
    match q.dequeue now dst with
    | (none, q, dropped) => (q, Effect.ofDropped dropped)
    | (some e, q, dropped) =>
      let (q', effects) := sendQueued now dst nextHop myAddress rounds q
      (q', Effect.ofDropped dropped ++
        .ucb e.ucb ⟨dst, routeSource myAddress e.header, nextHop, some 1⟩ e.packet e.header ::
        effects)

/-- SendPacketFromQueue. -/
def sendPacketFromQueue (E : Env β) (now : Time) (dst : Ipv4Address) (n : Node) : SendCall :=
  match n.queueNextHop E now dst with
  | (none, m) => ⟨n, dst, false, m, []⟩
  | (some nextHop, m) =>
    let (queue, effects) :=
      sendQueued now dst nextHop m.myAddress (m.queue.entries.length + 1) m.queue
    ⟨n, dst, true, { m with queue }, effects⟩

/-- The calls CheckQueue makes, one for each pending destination. -/
def checkQueueCalls (E : Env β) (now : Time) : List Ipv4Address → Node → Node × List SendCall
  | [], n => (n, [])
  | dst :: dsts, n =>
    let call := n.sendPacketFromQueue E now dst
    let (n, calls) := checkQueueCalls E now dsts call.post
    (n, call :: calls)

/-- CheckQueue, with the calls it made. -/
def checkQueue (E : Env β) (now : Time) (n : Node) : Node × List SendCall :=
  let (n, calls) := checkQueueCalls E now n.queuedAddresses { n with checkQueueTimer := none }
  let toRemove := ((calls.filter SendCall.sent).map SendCall.dst).reverse
  let queuedAddresses := toRemove.foldl (fun l a => l.filter (· ≠ a)) n.queuedAddresses
  ({ n with
    queuedAddresses
    checkQueueTimer :=
      if queuedAddresses.isEmpty then none else some (now + Time.milliSeconds 60000) }, calls)

/-! ### Facts -/

section
variable (E : Env β) (now : Time) (dst : Ipv4Address) (n : Node)

/-- The best neighbour of the node toward a position. -/
def bestToward (position : Vector3D) : Ipv4Address :=
  (n.neighbors.bestNeighbor E.tti now position n.position n.velocity).1

variable {E} {now} {n} in
theorem isNeighbour_bestToward {position : Vector3D}
    (h : n.bestToward E now position ≠ Ipv4Address.getZero) :
    (n.neighbors.purge now).isNeighbour (n.bestToward E now position) = true := by
  obtain ⟨v, hv, -⟩ := (NeighborTable.bestNeighbor_beats ..).resolve_left h
  have hin := NeighborTable.isNeighbour_of_candidate hv
  exact hin

/-- All three decisions leave everything but the neighbour table as it was, and
purge the table or leave it alone. -/
theorem outputNextHop_node :
    (n.outputNextHop E now dst).2 = { n with neighbors := n.neighbors.purge now } := by
  unfold outputNextHop
  simp only [NeighborTable.bestNeighbor_snd, NeighborTable.purge_purge]
  split_ifs <;> rfl

theorem forwardNextHop_node :
    (n.forwardNextHop E now dst).2 = { n with neighbors := n.neighbors.purge now } := by
  unfold forwardNextHop
  simp only [NeighborTable.bestNeighbor_snd, NeighborTable.purge_purge]
  split_ifs <;> rfl

theorem queueNextHop_node :
    (n.queueNextHop E now dst).2 =
      if n.neighbors.isNeighbour dst then n else { n with neighbors := n.neighbors.purge now } := by
  unfold queueNextHop
  simp only [NeighborTable.bestNeighbor_snd]
  split_ifs <;> rfl

theorem outputNextHop_eq :
    (n.outputNextHop E now dst).1 =
      if n.bestToward E now (n.nodesPosition.getPosition dst) = n.myAddress then none
      else if (n.neighbors.purge now).isNeighbour dst then
        if dst ≠ Ipv4Address.getZero then some dst else none
      else if n.bestToward E now (n.nodesPosition.getPosition dst) ≠ Ipv4Address.getZero then
        some (n.bestToward E now (n.nodesPosition.getPosition dst))
      else none := by
  unfold outputNextHop bestToward myAddress
  simp only [NeighborTable.bestNeighbor_snd, NeighborTable.bestNeighbor_purge]
  split_ifs <;> rfl

theorem forwardNextHop_eq :
    (n.forwardNextHop E now dst).1 =
      if (n.neighbors.purge now).isNeighbour dst then some dst
      else if n.bestToward E now ⟨0, 0, 0⟩ ≠ Ipv4Address.getZero then
        some (n.bestToward E now ⟨0, 0, 0⟩)
      else none := by
  unfold forwardNextHop bestToward
  simp only [NeighborTable.bestNeighbor_purge]
  split_ifs <;> rfl

theorem queueNextHop_eq :
    (n.queueNextHop E now dst).1 =
      if n.neighbors.isNeighbour dst then some dst
      else if n.bestToward E now (n.nodesPosition.getPosition dst) ≠ Ipv4Address.getZero then
        some (n.bestToward E now (n.nodesPosition.getPosition dst))
      else none := by
  unfold queueNextHop bestToward
  by_cases h : n.neighbors.isNeighbour dst = true
  · rw [if_pos h, if_pos h]
  · rw [if_neg h, if_neg h]

end

/-- DeferredRouteOutput purges the queue before it enqueues the packet, and starts
the timer when nothing is left. -/
theorem deferredRouteOutput_ok {now : Time} {n m : Node} {es : List Effect} {p : Packet}
    {header : Ipv4Header} {ucb ecb : Callback}
    (h : n.deferredRouteOutput now p header ucb ecb = .ok (m, es)) :
    ∃ added queue dropped,
      (n.queue.purge now).1.enqueue now (QueueEntry.make now p header ucb ecb) =
        .ok (added, queue, dropped) ∧
      m = { n with
        queue
        checkQueueTimer :=
          if (n.queue.purge now).1.entries.length = 0 then some (now + Time.milliSeconds 500)
          else n.checkQueueTimer
        queuedAddresses := (header.destination :: n.queuedAddresses).destutter (· ≠ ·) } ∧
      es = Effect.ofDropped ((n.queue.purge now).2 ++ dropped) := by
  obtain ⟨⟨added, queue, dropped⟩, henq, h⟩ := bind_eq_ok.mp h
  cases h
  exact ⟨added, queue, dropped, henq, rfl, rfl⟩

/-! ### Gateways -/

section
variable {now : Time} {dst nextHop myAddress : Ipv4Address}

theorem deferredRouteOutput_gateways {n m : Node} {es : List Effect} {p : Packet}
    {header : Ipv4Header} {ucb ecb : Callback}
    (h : n.deferredRouteOutput now p header ucb ecb = .ok (m, es)) : Effect.gateways es = [] := by
  obtain ⟨added, queue, dropped, -, -, rfl⟩ := deferredRouteOutput_ok h
  exact Effect.gateways_ofDropped _

/-- Forwarding hands a packet to its next hop, or defers it. -/
theorem forwarding_gateways {E : Env β} {n m : Node} {es : List Effect} {p : Packet}
    {header : Ipv4Header} {ucb ecb : Callback}
    (h : n.forwarding E now p header ucb ecb = .ok (m, es)) :
    Effect.gateways es = (n.forwardNextHop E now header.destination).1.toList := by
  unfold forwarding at h
  split at h <;> rename_i k heq <;> rw [heq]
  · cases h
    rfl
  · exact deferredRouteOutput_gateways h

variable (now dst nextHop myAddress) in
theorem gateways_sendQueued (rounds : ℕ) (q : RequestQueue) :
    ∀ a ∈ Effect.gateways (sendQueued now dst nextHop myAddress rounds q).2, a = nextHop := by
  induction rounds generalizing q with
  | zero => simp [sendQueued, Effect.gateways]
  | succ rounds ih =>
    unfold sendQueued
    split
    · simp
    · rename_i e q' dropped heq
      intro a ha
      rw [Effect.gateways_append, Effect.gateways_ofDropped, List.nil_append] at ha
      rcases List.mem_cons.mp ha with rfl | ha
      · rfl
      · exact ih q' a ha

variable (now dst nextHop myAddress) in
/-- Something is handed out exactly when a packet for the destination waits. -/
theorem gateways_sendQueued_ne_nil (rounds : ℕ) (q : RequestQueue) :
    Effect.gateways (sendQueued now dst nextHop myAddress (rounds + 1) q).2 ≠ [] ↔
      q.Holds now dst := by
  rw [← not_iff_comm.mp RequestQueue.dequeue_eq_none.symm]
  unfold sendQueued
  split <;> rename_i q' dropped heq <;> rw [heq]
  · simp
  · simp [Effect.gateways]

variable {E : Env β} {n : Node}

@[simp] theorem sendPacketFromQueue_pre : (n.sendPacketFromQueue E now dst).pre = n := by
  unfold sendPacketFromQueue
  split <;> rfl

@[simp] theorem sendPacketFromQueue_dst : (n.sendPacketFromQueue E now dst).dst = dst := by
  unfold sendPacketFromQueue
  split <;> rfl

theorem sendPacketFromQueue_of_none (h : (n.queueNextHop E now dst).1 = none) :
    n.sendPacketFromQueue E now dst = ⟨n, dst, false, (n.queueNextHop E now dst).2, []⟩ := by
  unfold sendPacketFromQueue
  split <;> rename_i m heq <;> rw [heq] at h ⊢
  cases h

theorem sendPacketFromQueue_of_some (h : (n.queueNextHop E now dst).1 = some nextHop) :
    n.sendPacketFromQueue E now dst =
      ⟨n, dst, true, { (n.queueNextHop E now dst).2 with
          queue :=
            (sendQueued now dst nextHop n.myAddress (n.queue.entries.length + 1) n.queue).1 },
        (sendQueued now dst nextHop n.myAddress (n.queue.entries.length + 1) n.queue).2⟩ := by
  have hnode := queueNextHop_node E now dst n
  unfold sendPacketFromQueue
  split <;> rename_i m heq <;> rw [heq] at h hnode ⊢
  · cases h
  · cases h
    dsimp only at hnode ⊢
    split_ifs at hnode <;> subst hnode <;> rfl

end

end Node

end SAeroRP
