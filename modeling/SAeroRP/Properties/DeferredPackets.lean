import SAeroRP.System.Deferral
import SAeroRP.System.Sample

/-! What becomes of deferred packets. DeferredRouteOutput loses a packet that its
queue refuses, because a packet with the same uid and destination is queued: no
callback is called for it. Every other packet is in the queue until one of its two
callbacks is called once. No queued packet is forgotten: its destination stays
pending under a running timer. -/

namespace SAeroRP

open Library

namespace Deferral

variable {β : Type} [Preorder β] [DecidableLT β] [DecidableEq β] [Zero β] {E : Env β}

/-! ### Accounts of runs -/

/-- The packet a step loses. -/
def lost (x : Transition Sys Event (List Effect)) : List Deferral :=
  match x.event with
  | .defer d =>
    if x.pre.node.queue.Queued x.pre.now d.packet.uid d.header.destination then [d] else []
  | _ => []

theorem lost_eq_nil {x : Transition Sys Event (List Effect)} : lost x = [] ↔ ¬ Refused x := by
  obtain ⟨s, e, es, t⟩ := x
  cases e with
  | defer d => simp [lost, Refused]
  | advance => simp [lost, Refused]
  | checkQueue => simp [lost, Refused]
  | other => simp [lost, Refused]

theorem accounted_step {x : Transition Sys Event (List Effect)} (h : Step E x) :
    Accounted (x.pre.node.queue.entries.map QueueEntry.deferral ++ handedOver x.event) x.out
      x.post.node.queue.entries (lost x) := by
  obtain ⟨s, e, es, t⟩ := x
  replace h : Does E s e t es := h
  cases h with
  | advance hdt htimer => simpa [handedOver, lost] using Accounted.refl s.node.queue.entries
  | defer h => exact Node.accounted_deferredRouteOutput h
  | checkQueue htimer => simpa [handedOver, lost] using s.node.accounted_checkQueue E s.now
  | @other node h =>
    have hrefl := Accounted.refl node.queue.entries
    rw [h.queue] at hrefl
    simpa [handedOver, lost, h.queue] using hrefl

/-- Over a run, what was queued at first or handed over since is queued, settled by
one call, or was refused. -/
theorem accounted_run {s u : Sys} {tr : List (Transition Sys Event (List Effect))}
    (h : Run (Step E) s tr u) :
    Accounted
      (s.node.queue.entries.map QueueEntry.deferral ++ tr.flatMap fun x => handedOver x.event)
      (tr.flatMap Transition.out) u.node.queue.entries (tr.flatMap lost) := by
  induction h with
  | nil s => simpa using Accounted.refl s.node.queue.entries
  | cons hpre hstep _ ih =>
    subst hpre
    exact (accounted_step hstep).trans ih

/-- The packets are all accounted for exactly when no call was refused: a refused
packet is lost for good. -/
theorem accounted_iff {s u : Sys} {tr : List (Transition Sys Event (List Effect))}
    (h : Run (Step E) s tr u) :
    Accounted
        (s.node.queue.entries.map QueueEntry.deferral ++ tr.flatMap fun x => handedOver x.event)
        (tr.flatMap Transition.out) u.node.queue.entries [] ↔
      ∀ x ∈ tr, ¬ Refused x := by
  have hrun := accounted_run h
  constructor
  · intro hall x hx
    have hlen := hall.length_eq
    rw [hrun.length_eq] at hlen
    have hnil : tr.flatMap lost = [] := by
      apply List.eq_nil_of_length_eq_zero
      simp only [List.length_nil] at hlen
      omega
    exact lost_eq_nil.mp (List.flatMap_eq_nil_iff.mp hnil x hx)
  · intro hnone
    have hnil : tr.flatMap lost = [] :=
      List.flatMap_eq_nil_iff.mpr fun x hx => lost_eq_nil.mpr (hnone x hx)
    rwa [hnil] at hrun

/-- A packet of one byte for a destination without a next hop. -/
def fragment (b : UInt8) : Deferral :=
  ⟨⟨[b], 7, false⟩, ⟨.ofOctets 10 1 1 2, .ofOctets 10 1 1 9⟩, 1, 2⟩

theorem fragment_accounted :
    ∃ tr u, Run (Step Sample.env) Sample.initial tr u ∧
      tr.map Transition.event = [.defer (fragment 1)] ∧
      Accounted (Sample.initial.node.queue.entries.map QueueEntry.deferral ++
          tr.flatMap fun x => handedOver x.event)
        (tr.flatMap Transition.out) u.node.queue.entries [] := by
  obtain ⟨t, h⟩ : ∃ t, Does Sample.env Sample.initial (.defer (fragment 1)) t [] :=
    ⟨_, .defer rfl⟩
  refine ⟨_, t, h.run, rfl, (accounted_iff h.run).mpr ?_⟩
  simp [Refused, RequestQueue.Queued, Sample.initial, Sample.node]

/-- Two packets with one uid, as the fragments of a larger packet have, are handed
over one after the other; the second is in none of the three places. -/
theorem second_fragment_lost :
    ∃ tr u, Run (Step Sample.env) Sample.initial tr u ∧
      tr.map Transition.event = [.defer (fragment 1), .defer (fragment 2)] ∧
      ¬ Accounted (Sample.initial.node.queue.entries.map QueueEntry.deferral ++
          tr.flatMap fun x => handedOver x.event)
        (tr.flatMap Transition.out) u.node.queue.entries [] := by
  obtain ⟨t, u, h, h', hlen⟩ : ∃ t u, Does Sample.env Sample.initial (.defer (fragment 1)) t [] ∧
      Does Sample.env t (.defer (fragment 2)) u [] ∧ u.node.queue.entries.length = 1 :=
    ⟨_, _, .defer rfl, .defer rfl, rfl⟩
  refine ⟨_, u, h.run.append h'.run, rfl, fun hall => ?_⟩
  have hcount := hall.length_eq
  simp [handedOver, hlen, Sample.initial, Sample.node] at hcount

/-! ### Pending destinations -/

/-- The node strands no packet. -/
def NoneStranded (s : Sys) : Prop := s.node.NotStranded

theorem noneStranded_step (x : Transition Sys Event (List Effect)) (h : Step E x)
    (hpre : NoneStranded x.pre) : NoneStranded x.post := by
  obtain ⟨s, e, es, t⟩ := x
  replace h : Does E s e t es := h
  cases h with
  | advance hdt htimer => exact hpre
  | defer h => exact hpre.deferredRouteOutput h
  | checkQueue htimer => exact hpre.checkQueue E s.now
  | other h =>
    constructor
    · rw [h.queue, h.queuedAddresses]
      exact hpre.pending
    · rw [h.queue, h.checkQueueTimer]
      exact hpre.timer

theorem noneStranded_start {created : Credentials} {generated : Block SHARED_KEY_SIZE} {n : Node}
    (now : Time) (hempty : n.queue.entries = []) :
    NoneStranded ⟨now, n.start created generated⟩ := by
  have hqueue : (n.start created generated).queue = n.queue := by
    by_cases hsec : n.securityState = true <;> by_cases hgs : n.isGroundStation = true <;>
      simp [Node.start, Node.authenticationIntialize, Node.setSharedKey, hsec, hgs]
  rw [← hqueue] at hempty
  exact ⟨by simp [hempty], fun hne => absurd hempty hne⟩

/-- A node that was started with an empty queue strands no packet. -/
theorem no_packet_stranded {created : Credentials} {generated : Block SHARED_KEY_SIZE} {n : Node}
    {now : Time} {u : Sys} {tr : List (Transition Sys Event (List Effect))}
    (hempty : n.queue.entries = []) (h : Run (Step E) ⟨now, n.start created generated⟩ tr u) :
    u.node.NotStranded :=
  (h.invariant noneStranded_step (noneStranded_start now hempty)).1

/-- Node 1 after it has deferred one packet. -/
theorem fragment_not_stranded :
    ∃ tr u, Run (Step Sample.env)
      ⟨0, (Sample.node 1).start (Sample.credentials 1) (Sample.fill _ [1])⟩ tr u ∧
      u.node.queue.entries.length = 1 ∧ u.node.NotStranded := by
  obtain ⟨u, h, hlen⟩ : ∃ u, Does Sample.env ⟨0, (Sample.node 1).start (Sample.credentials 1)
      (Sample.fill _ [1])⟩ (.defer (fragment 1)) u [] ∧ u.node.queue.entries.length = 1 :=
    ⟨_, .defer rfl, rfl⟩
  exact ⟨_, u, h.run, hlen, no_packet_stranded rfl h.run⟩

/-- The same of a node with everything else it does. -/
theorem noneStranded_of_run {created : Credentials} {generated : Block SHARED_KEY_SIZE} {n : Node}
    {now : Time} {u : Sys} {tr : List (Transition Sys SAeroRP.Event Output)}
    (hempty : n.queue.entries = []) (h : Run (Sys.Step E) ⟨now, n.start created generated⟩ tr u) :
    NoneStranded u := by
  refine (h.invariant (fun x hx hpre => ?_) (noneStranded_start now hempty)).1
  obtain ⟨tr', hrun⟩ := run_of_does hx
  exact (hrun.invariant noneStranded_step hpre).1

end Deferral

end SAeroRP
