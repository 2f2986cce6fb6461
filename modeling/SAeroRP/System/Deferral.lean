import SAeroRP.System.Frame

/-! The packets a node defers, from DeferredRouteOutput until a callback has taken
them. Events are calls of DeferredRouteOutput, expiries of CheckQueueTimer, elapsed
time, and whatever else the node does that leaves the queue, the pending
destinations and the timer alone. -/

namespace SAeroRP

open Library

/-! ### Accounts -/

/-- What is handed over to DeferredRouteOutput. -/
structure Deferral where
  packet : Packet
  header : Ipv4Header
  ucb : Callback
  ecb : Callback
  deriving DecidableEq

def QueueEntry.deferral (e : QueueEntry) : Deferral := ⟨e.packet, e.header, e.ucb, e.ecb⟩

/-- How a packet leaves the protocol. -/
inductive Fate where
  | dispatched
  | dropped
  deriving DecidableEq

/-- A call of the forwarding or of the error callback on a packet. -/
structure Settlement where
  fate : Fate
  callback : Callback
  packet : Packet
  header : Ipv4Header
  deriving DecidableEq

def Deferral.settle (d : Deferral) : Fate → Settlement
  | .dispatched => ⟨.dispatched, d.ucb, d.packet, d.header⟩
  | .dropped => ⟨.dropped, d.ecb, d.packet, d.header⟩

/-- The calls of forwarding and error callbacks. -/
def Effect.settlements (es : List Effect) : List Settlement :=
  es.filterMap fun
    | ucb callback _ packet header => some ⟨.dispatched, callback, packet, header⟩
    | ecb callback packet header _ => some ⟨.dropped, callback, packet, header⟩
    | _ => none

/-- The packets handed over are, one to one, those in the queue, those a callback
was called on in `es`, each by its own callback, and the lost ones. -/
def Accounted (given : List Deferral) (es : List Effect) (queue : List QueueEntry)
    (lost : List Deferral) : Prop :=
  ∃ out : List (Deferral × Fate), Effect.settlements es = out.map (fun o => o.1.settle o.2) ∧
    given.Perm (queue.map QueueEntry.deferral ++ out.map Prod.fst ++ lost)

namespace Effect

@[simp] theorem settlements_nil : settlements [] = [] := rfl

@[simp] theorem settlements_append (es es' : List Effect) :
    settlements (es ++ es') = settlements es ++ settlements es' := List.filterMap_append

@[simp] theorem settlements_ofDropped (dropped : List QueueEntry) :
    settlements (ofDropped dropped) = dropped.map fun e => e.deferral.settle .dropped := by
  simp [settlements, ofDropped, List.filterMap_map, Deferral.settle, QueueEntry.deferral]

end Effect

namespace Accounted

variable {given given' lost lost' : List Deferral} {es es' : List Effect}
  {q q' q'' : List QueueEntry}

theorem refl (q : List QueueEntry) : Accounted (q.map QueueEntry.deferral) [] q [] :=
  ⟨[], rfl, by simp⟩

/-- Accounts of consecutive calls add up. -/
theorem trans (h : Accounted (q.map QueueEntry.deferral ++ given) es q' lost)
    (h' : Accounted (q'.map QueueEntry.deferral ++ given') es' q'' lost') :
    Accounted (q.map QueueEntry.deferral ++ (given ++ given')) (es ++ es') q'' (lost ++ lost') := by
  obtain ⟨out, hout, hperm⟩ := h
  obtain ⟨out', hout', hperm'⟩ := h'
  refine ⟨out ++ out', by simp [hout, hout'], List.perm_iff_count.mpr fun d => ?_⟩
  have hd := List.perm_iff_count.mp hperm d
  have hd' := List.perm_iff_count.mp hperm' d
  simp only [List.count_append, List.map_append] at hd hd' ⊢
  omega

theorem comp (h : Accounted (q.map QueueEntry.deferral) es q' [])
    (h' : Accounted (q'.map QueueEntry.deferral) es' q'' []) :
    Accounted (q.map QueueEntry.deferral) (es ++ es') q'' [] := by
  rw [← List.append_nil (List.map _ _)] at h h' ⊢
  exact h.trans h'

theorem lose (h : Accounted given es q lost) (l : List Deferral) :
    Accounted (given ++ l) es q (lost ++ l) := by
  obtain ⟨out, hout, hperm⟩ := h
  exact ⟨out, hout, by simpa using hperm.append_right l⟩

/-- Entries that are dropped are settled by their error callbacks. -/
theorem ofDropped {dropped : List QueueEntry} (h : (dropped ++ q').Perm q) :
    Accounted (q.map QueueEntry.deferral) (Effect.ofDropped dropped) q' [] := by
  refine ⟨dropped.map fun e => (e.deferral, .dropped), by simp, ?_⟩
  have hmap := h.symm.map QueueEntry.deferral
  rw [List.map_append] at hmap
  simpa [Function.comp_def] using hmap.trans List.perm_append_comm

/-- An entry that is handed out is settled by its forwarding callback. -/
theorem dispatch (e : QueueEntry) (route : Ipv4Route) (q : List QueueEntry) :
    Accounted ((e :: q).map QueueEntry.deferral) [.ucb e.ucb route e.packet e.header] q [] :=
  ⟨[(e.deferral, .dispatched)], rfl, by simpa using (List.perm_append_singleton _ _).symm⟩

/-- What is handed over and neither queued nor settled is lost. -/
theorem length_eq (h : Accounted given es q lost) :
    given.length = q.length + (Effect.settlements es).length + lost.length := by
  obtain ⟨out, hout, hperm⟩ := h
  have hlen := hperm.length_eq
  simpa [hout, Nat.add_assoc] using hlen

end Accounted

/-! ### The calls -/

namespace Node

variable {β : Type} [Preorder β] [DecidableLT β] [DecidableEq β] [Zero β]
  (E : Env β) (now : Time) (n : Node)

/-- DeferredRouteOutput takes the packet into the queue, or loses it because the
packet is queued already. -/
theorem accounted_deferredRouteOutput {now : Time} {n m : Node} {d : Deferral} {es : List Effect}
    (h : n.deferredRouteOutput now d.packet d.header d.ucb d.ecb = .ok (m, es)) :
    Accounted (n.queue.entries.map QueueEntry.deferral ++ [d]) es m.queue.entries
      (if n.queue.Queued now d.packet.uid d.header.destination then [d] else []) := by
  obtain ⟨added, queue, dropped, henq, rfl, rfl⟩ := deferredRouteOutput_ok h
  have hpurge := RequestQueue.perm_purge now n.queue
  rcases RequestQueue.enqueue_ok henq with ⟨hq, hperm⟩ | ⟨hq, hperm⟩
  · have hqueued : n.queue.Queued now d.packet.uid d.header.destination :=
      RequestQueue.queued_purge.mp hq
    rw [if_pos hqueued]
    apply (Accounted.ofDropped ?_).lose [d]
    rw [List.append_assoc]
    exact (hperm.append_left _).trans hpurge
  · have hqueued : ¬ n.queue.Queued now d.packet.uid d.header.destination :=
      fun h => hq (RequestQueue.queued_purge.mpr h)
    rw [if_neg hqueued]
    have hall : ((n.queue.purge now).2 ++ dropped ++ queue.entries).Perm
        (n.queue.entries ++ [(QueueEntry.make now d.packet d.header d.ucb d.ecb).setExpireTime now
          n.queue.queueTimeout]) := by
      rw [List.append_assoc]
      refine (hperm.append_left _).trans ?_
      rw [← List.append_assoc]
      exact hpurge.append_right _
    have hacc := Accounted.ofDropped hall
    rw [List.map_append] at hacc
    exact hacc

/-- The loop settles the entries it takes off the queue. -/
theorem accounted_sendQueued (dst nextHop myAddress : Ipv4Address) (rounds : ℕ)
    (q : RequestQueue) :
    Accounted (q.entries.map QueueEntry.deferral)
      (sendQueued now dst nextHop myAddress rounds q).2
      (sendQueued now dst nextHop myAddress rounds q).1.entries [] := by
  induction rounds generalizing q with
  | zero => exact .refl _
  | succ rounds ih =>
    have hperm := RequestQueue.perm_dequeue now q dst
    unfold sendQueued
    split <;> rename_i q' dropped heq <;> rw [heq] at hperm
    · exact .ofDropped (by simpa using hperm)
    · exact (Accounted.ofDropped hperm).comp ((Accounted.dispatch _ _ _).comp (ih q'))

theorem accounted_sendPacketFromQueue (dst : Ipv4Address) :
    Accounted (n.queue.entries.map QueueEntry.deferral) (n.sendPacketFromQueue E now dst).effects
      (n.sendPacketFromQueue E now dst).post.queue.entries [] := by
  cases hhop : (n.queueNextHop E now dst).1 with
  | none =>
    rw [sendPacketFromQueue_of_none hhop, queueNextHop_node]
    split_ifs <;> exact .refl _
  | some nextHop =>
    rw [sendPacketFromQueue_of_some hhop]
    exact accounted_sendQueued now dst nextHop n.myAddress _ n.queue

theorem accounted_checkQueueCalls (dsts : List Ipv4Address) :
    Accounted (n.queue.entries.map QueueEntry.deferral)
      ((checkQueueCalls E now dsts n).2.flatMap SendCall.effects)
      (checkQueueCalls E now dsts n).1.queue.entries [] := by
  induction dsts generalizing n with
  | nil => exact .refl _
  | cons dst dsts ih => exact (n.accounted_sendPacketFromQueue E now dst).comp (ih _)

theorem accounted_checkQueue :
    Accounted (n.queue.entries.map QueueEntry.deferral)
      ((n.checkQueue E now).2.flatMap SendCall.effects) (n.checkQueue E now).1.queue.entries [] :=
  accounted_checkQueueCalls E now { n with checkQueueTimer := none } n.queuedAddresses

/-! ### Draining -/

theorem subset_sendQueued (dst nextHop myAddress : Ipv4Address) (rounds : ℕ) (q : RequestQueue) :
    (sendQueued now dst nextHop myAddress rounds q).1.entries ⊆ q.entries := by
  induction rounds generalizing q with
  | zero => exact List.Subset.refl _
  | succ rounds ih =>
    have hsub := RequestQueue.subset_dequeue now q dst
    unfold sendQueued
    split <;> rename_i q' dropped heq <;> rw [heq] at hsub
    · exact hsub
    · exact List.Subset.trans (ih q') hsub

/-- A loop of more rounds than the queue has entries takes all that is for the
destination. -/
theorem drained_sendQueued (dst nextHop myAddress : Ipv4Address) (rounds : ℕ) (q : RequestQueue)
    (hrounds : q.entries.length < rounds) :
    ∀ e ∈ (sendQueued now dst nextHop myAddress rounds q).1.entries,
      e.header.destination ≠ dst := by
  induction rounds generalizing q with
  | zero => omega
  | succ rounds ih =>
    unfold sendQueued
    split
    · rename_i q' dropped heq
      have hnone : (q.dequeue now dst).1 = none := by rw [heq]
      intro e he hdst
      have hq' : q' = (q.dequeue now dst).2.1 := by rw [heq]
      rw [hq', RequestQueue.entries_dequeue_of_none hnone] at he
      exact RequestQueue.dequeue_eq_none.mp hnone ⟨e, (RequestQueue.mem_purge.mp he).1,
        (RequestQueue.mem_purge.mp he).2, hdst⟩
    · rename_i e q' dropped heq
      have hsome : (q.dequeue now dst).1 = some e := by rw [heq]
      have hlen := RequestQueue.length_of_dequeue hsome
      rw [heq] at hlen
      exact ih q' (by dsimp only at hlen; omega)

theorem subset_sendPacketFromQueue (dst : Ipv4Address) :
    (n.sendPacketFromQueue E now dst).post.queue.entries ⊆ n.queue.entries := by
  cases hhop : (n.queueNextHop E now dst).1 with
  | none =>
    rw [sendPacketFromQueue_of_none hhop, queueNextHop_node]
    split_ifs <;> exact List.Subset.refl _
  | some nextHop =>
    rw [sendPacketFromQueue_of_some hhop]
    exact subset_sendQueued now dst nextHop n.myAddress _ n.queue

theorem drained_sendPacketFromQueue {dst : Ipv4Address}
    (hsent : (n.sendPacketFromQueue E now dst).sent = true) :
    ∀ e ∈ (n.sendPacketFromQueue E now dst).post.queue.entries, e.header.destination ≠ dst := by
  cases hhop : (n.queueNextHop E now dst).1 with
  | none =>
    rw [sendPacketFromQueue_of_none hhop] at hsent
    cases hsent
  | some nextHop =>
    rw [sendPacketFromQueue_of_some hhop]
    exact drained_sendQueued now dst nextHop n.myAddress _ n.queue (Nat.lt_succ_self _)

theorem subset_checkQueueCalls (dsts : List Ipv4Address) :
    (checkQueueCalls E now dsts n).1.queue.entries ⊆ n.queue.entries := by
  induction dsts generalizing n with
  | nil => exact List.Subset.refl _
  | cons dst dsts ih => exact List.Subset.trans (ih _) (n.subset_sendPacketFromQueue E now dst)

/-- Nothing waits for a destination that a call has sent to. -/
theorem drained_checkQueueCalls (dsts : List Ipv4Address) :
    ∀ c ∈ (checkQueueCalls E now dsts n).2, c.sent = true →
      ∀ e ∈ (checkQueueCalls E now dsts n).1.queue.entries, e.header.destination ≠ c.dst := by
  induction dsts generalizing n with
  | nil => simp [checkQueueCalls]
  | cons dst dsts ih =>
    intro c hc hsent e he
    rcases List.mem_cons.mp hc with rfl | hc
    · rw [sendPacketFromQueue_dst]
      exact n.drained_sendPacketFromQueue E now hsent e
        (subset_checkQueueCalls E now _ dsts he)
    · exact ih _ c hc hsent e he

/-! ### Pending destinations -/

/-- Every queued packet waits for a pending destination, under a running timer. -/
structure NotStranded (n : Node) : Prop where
  pending : ∀ e ∈ n.queue.entries, e.header.destination ∈ n.queuedAddresses
  timer : n.queue.entries ≠ [] → n.checkQueueTimer ≠ none

theorem NotStranded.deferredRouteOutput {now : Time} {n m : Node} {p : Packet}
    {header : Ipv4Header} {ucb ecb : Callback} {es : List Effect} (hn : n.NotStranded)
    (h : n.deferredRouteOutput now p header ucb ecb = .ok (m, es)) : m.NotStranded := by
  obtain ⟨added, queue, dropped, henq, rfl, -⟩ := deferredRouteOutput_ok h
  have hkept : ∀ e ∈ (n.queue.purge now).1.entries, e.header.destination ∈ n.queuedAddresses :=
    fun e he => hn.pending e (RequestQueue.mem_purge.mp he).1
  constructor
  · intro e he
    rw [Library.mem_destutter_ne, List.mem_cons]
    have hin := List.mem_append_right dropped he
    rcases RequestQueue.enqueue_ok henq with ⟨-, hperm⟩ | ⟨-, hperm⟩
    · exact .inr (hkept e (hperm.subset hin))
    · rcases List.mem_append.mp (hperm.subset hin) with he | he
      · exact .inr (hkept e he)
      · rw [List.mem_singleton.mp he]
        exact .inl rfl
  · intro _
    dsimp only
    split_ifs with hempty
    · exact Option.some_ne_none _
    · apply hn.timer
      obtain ⟨e, he⟩ := List.exists_mem_of_length_pos (Nat.pos_of_ne_zero hempty)
      exact List.ne_nil_of_mem (RequestQueue.mem_purge.mp he).1

theorem queuedAddresses_checkQueueCalls (dsts : List Ipv4Address) :
    (checkQueueCalls E now dsts n).1.queuedAddresses = n.queuedAddresses := by
  obtain ⟨queue, neighbors, h⟩ := checkQueueCalls_frame now n E dsts
  rw [h]

/-- A destination stays pending unless a call has sent to it. -/
theorem mem_queuedAddresses_checkQueue {a : Ipv4Address} :
    a ∈ (n.checkQueue E now).1.queuedAddresses ↔
      a ∈ n.queuedAddresses ∧ ∀ c ∈ (n.checkQueue E now).2, c.sent = true → c.dst ≠ a := by
  simp only [checkQueue, Library.mem_foldl_filter_ne, queuedAddresses_checkQueueCalls,
    List.mem_reverse, List.mem_map, List.mem_filter, not_exists, not_and, and_imp]

theorem NotStranded.checkQueue (hn : n.NotStranded) : (n.checkQueue E now).1.NotStranded := by
  have hpending : ∀ e ∈ (n.checkQueue E now).1.queue.entries,
      e.header.destination ∈ (n.checkQueue E now).1.queuedAddresses := by
    intro e he
    have hin : e ∈ n.queue.entries :=
      subset_checkQueueCalls E now { n with checkQueueTimer := none } n.queuedAddresses he
    refine (mem_queuedAddresses_checkQueue E now n).mpr ⟨hn.pending e hin, fun c hc hsent => ?_⟩
    exact (drained_checkQueueCalls E now _ _ c hc hsent e he).symm
  refine ⟨hpending, fun hne => ?_⟩
  obtain ⟨e, he⟩ := List.exists_mem_of_ne_nil _ hne
  -- a pending destination is left, so CheckQueue schedules the timer again
  have hleft := List.ne_nil_of_mem (hpending e he)
  simp only [Node.checkQueue] at hleft ⊢
  rw [if_neg (by simpa using hleft)]
  exact Option.some_ne_none _

end Node

/-! ### Runs -/

/-- A node leaves the queue and its bookkeeping alone. -/
structure KeepsDeferred (n m : Node) : Prop where
  queue : m.queue = n.queue
  queuedAddresses : m.queuedAddresses = n.queuedAddresses
  checkQueueTimer : m.checkQueueTimer = n.checkQueueTimer

namespace KeepsDeferred

variable {now : Time} {n m : Node}

theorem of_receives (h : Node.Receives now n m) : KeepsDeferred n m := by
  constructor <;> rw [h.frame]

theorem of_routeOutput {β : Type} [Preorder β] [DecidableLT β] [DecidableEq β] [Zero β]
    {E : Env β} {chance : Chance} {p : Option Packet}
    {header : Ipv4Header} {oif : Option NetDevice} {sockerr : SocketErrno} {r : RouteOutputResult}
    (h : n.routeOutput E now chance p header oif sockerr = .ok r) : KeepsDeferred n r.node := by
  rcases Node.routeOutput_node h with hnode | hnode <;> rw [hnode]
  · exact ⟨rfl, rfl, rfl⟩
  · exact ⟨rfl, rfl, rfl⟩

end KeepsDeferred

namespace Deferral

inductive Event where
  | advance (dt : Time)
  | defer (d : Deferral)
  | checkQueue
  /-- Anything else that changes the node to the given one. -/
  | other (node : Node)

variable {β : Type} [Preorder β] [DecidableLT β] [DecidableEq β] [Zero β]

/-- `Does E s e t es`: in state `s` the event `e` may happen, leads to `t` and puts
out `es`. Time does not pass an expiry of the timer. -/
inductive Does (E : Env β) (s : Sys) : Event → Sys → List Effect → Prop
  | advance {dt : Time} (hdt : 0 ≤ dt)
      (htimer : ∀ t, s.node.checkQueueTimer = some t → s.now + dt ≤ t) :
      Does E s (.advance dt) { s with now := s.now + dt } []
  | defer {d : Deferral} {node : Node} {es : List Effect}
      (h : s.node.deferredRouteOutput s.now d.packet d.header d.ucb d.ecb = .ok (node, es)) :
      Does E s (.defer d) { s with node } es
  | checkQueue (htimer : s.node.checkQueueTimer = some s.now) :
      Does E s .checkQueue { s with node := (s.node.checkQueue E s.now).1 }
        ((s.node.checkQueue E s.now).2.flatMap SendCall.effects)
  | other {node : Node} (h : KeepsDeferred s.node node) :
      Does E s (.other node) { s with node } []

def Step (E : Env β) (x : Transition Sys Event (List Effect)) : Prop :=
  Does E x.pre x.event x.post x.out

/-- The packet a call of DeferredRouteOutput is handed. -/
def handedOver : Event → List Deferral
  | .defer d => [d]
  | _ => []

/-- The call is for a packet with the uid and the destination of one that is queued
and has not expired. -/
def Refused (x : Transition Sys Event (List Effect)) : Prop :=
  ∃ d, x.event = .defer d ∧
    x.pre.node.queue.Queued x.pre.now d.packet.uid d.header.destination

/-! ### The whole node -/

section
variable {E : Env β} {s t : Sys} {n m : Node}

theorem Does.run {e : Event} {es : List Effect} (h : Does E s e t es) :
    Run (Step E) s [⟨s, e, es, t⟩] t :=
  .single ⟨s, e, es, t⟩ h

theorem run_other (h : KeepsDeferred s.node m) : ∃ tr, Run (Step E) s tr { s with node := m } :=
  ⟨_, (Does.other h).run⟩

/-- A change of something else, and then a call of DeferredRouteOutput. -/
theorem run_defer (h : KeepsDeferred s.node n) {p : Packet} {header : Ipv4Header}
    {ucb ecb : Callback} {es : List Effect}
    (hd : n.deferredRouteOutput s.now p header ucb ecb = .ok (m, es)) :
    ∃ tr, Run (Step E) s tr { s with node := m } := by
  have hother : Does E s (.other n) { s with node := n } [] := .other h
  have hdefer : Does E { s with node := n } (.defer ⟨p, header, ucb, ecb⟩) { s with node := m } es :=
    .defer hd
  exact ⟨_, hother.run.append hdefer.run⟩

/-- RouteInput calls DeferredRouteOutput at most once, at its end. -/
theorem routeInput_defers {chance : Chance} {p : Packet} {header : Ipv4Header} {iif : ℕ}
    {ucb lcb ecb : Callback} {now : Time} {r : RouteInputResult}
    (h : n.routeInput E now chance p header iif ucb lcb ecb = .ok r) :
    ∃ k, KeepsDeferred n k ∧ (r.node = k ∨
      ∃ p es, k.deferredRouteOutput now p header ucb ecb = .ok (r.node, es)) := by
  have haad : KeepsDeferred n { n with
      gcmAadToBeChecked := gcmAad header.source header.destination } := ⟨rfl, rfl, rfl⟩
  unfold Node.routeInput at h
  dsimp only at h
  split_ifs at h
  · cases h
    exact ⟨_, haad, .inl rfl⟩
  · obtain ⟨⟨k, es⟩, hk, h⟩ := bind_eq_ok.mp h
    cases h
    exact ⟨_, haad, .inr ⟨_, es, hk⟩⟩
  · cases h
    exact ⟨_, haad, .inl rfl⟩
  · obtain ⟨⟨k, es⟩, hk, h⟩ := bind_eq_ok.mp h
    cases h
    have hnode := Node.forwardNextHop_node E now header.destination
      { n with gcmAadToBeChecked := gcmAad header.source header.destination }
    unfold Node.forwarding at hk
    split at hk <;> rename_i m heq <;> rw [heq] at hnode <;> subst hnode
    · cases hk
      refine ⟨_, ?_, .inl rfl⟩
      exact ⟨rfl, rfl, rfl⟩
    · refine ⟨_, ?_, .inr ⟨_, es, hk⟩⟩
      exact ⟨rfl, rfl, rfl⟩

theorem run_routeInput {chance : Chance} {p : Packet} {header : Ipv4Header} {iif : ℕ}
    {ucb lcb ecb : Callback} {r : RouteInputResult}
    (h : s.node.routeInput E s.now chance p header iif ucb lcb ecb = .ok r) :
    ∃ tr, Run (Step E) s tr { s with node := r.node } := by
  obtain ⟨k, hkeeps, heq | ⟨p, es, hdefer⟩⟩ := routeInput_defers h
  · rw [heq]
    exact run_other hkeeps
  · exact run_defer hkeeps hdefer

/-- Every step of the node is a run of this system. -/
theorem run_of_does {e : SAeroRP.Event} {o : Output} (h : Sys.Does E s e t o) :
    ∃ tr, Run (Step E) s tr t := by
  cases h with
  | advance hdt htimer => exact ⟨_, (Does.advance hdt htimer).run⟩
  | move position velocity => exact run_other ⟨rfl, rfl, rfl⟩
  | recv h => exact run_other (.of_receives (Node.recvAERORP_receives h))
  | routeOutput h => exact run_other (.of_routeOutput h)
  | routeInput h => exact run_routeInput h
  | checkQueue htimer => exact ⟨_, (Does.checkQueue htimer).run⟩
  | authenticationTimer h => exact ⟨[], .nil s⟩

end

end Deferral

end SAeroRP
