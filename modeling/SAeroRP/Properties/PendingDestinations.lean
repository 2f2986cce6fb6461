import SAeroRP.System.Deferral
import SAeroRP.System.Sample

/-! The list of pending destinations. DeferredRouteOutput puts a destination in front of it and
removes neighbouring repetitions, so a destination that comes back after another is there
twice. -/

namespace SAeroRP

open Library

namespace Pending

/-- Calls may come at any time. -/
inductive Event where
  | defer (now : Time) (d : Deferral)
  | checkQueue (now : Time)
  /-- Anything else that changes the node to the given one. -/
  | other (node : Node)

variable {β : Type} [Preorder β] [DecidableLT β] [DecidableEq β] [Zero β]

/-- A call, and the calls of SendPacketFromQueue it makes. -/
def Step (E : Env β) (x : Transition Node Event (List SendCall)) : Prop :=
  match x.event with
  | .defer now d => x.out = [] ∧ ∃ es,
      x.pre.deferredRouteOutput now d.packet d.header d.ucb d.ecb = .ok (x.post, es)
  | .checkQueue now => (x.post, x.out) = x.pre.checkQueue E now
  | .other node => KeepsDeferred x.pre node ∧ x.post = node ∧ x.out = []

/-- No destination is pending twice, and SendPacketFromQueue is called for none twice. -/
structure Unrepeated (x : Transition Node Event (List SendCall)) : Prop where
  pending : x.post.queuedAddresses.Nodup
  calls : (x.out.map SendCall.dst).Nodup

/-- The destination is not pending, or the last that came in. -/
def Follows (x : Transition Node Event (List SendCall)) : Prop :=
  ∀ now d, x.event = .defer now d → x.pre.queuedAddresses.head? = some d.header.destination ∨
    d.header.destination ∉ x.pre.queuedAddresses

/-- The destinations of the packets that were deferred. -/
def destinations (tr : List (Transition Node Event (List SendCall))) : List Ipv4Address :=
  tr.filterMap fun x => match x.event with
    | .defer _ d => some d.header.destination
    | _ => none

variable {E : Env β} {n : Node} {x : Transition Node Event (List SendCall)}

/-! ### CheckQueue -/

/-- One call for each pending destination. -/
theorem map_dst_checkQueueCalls (now : Time) (dsts : List Ipv4Address) :
    (Node.checkQueueCalls E now dsts n).2.map SendCall.dst = dsts := by
  induction dsts generalizing n with
  | nil => rfl
  | cons dst dsts ih =>
    rw [Node.checkQueueCalls]
    exact congrArg₂ List.cons (Node.sendPacketFromQueue_dst ..) ih

theorem map_dst_checkQueue (now : Time) :
    (n.checkQueue E now).2.map SendCall.dst = n.queuedAddresses :=
  map_dst_checkQueueCalls now n.queuedAddresses

theorem sublist_checkQueue (now : Time) :
    (n.checkQueue E now).1.queuedAddresses.Sublist n.queuedAddresses := by
  have hkept := Node.queuedAddresses_checkQueueCalls E now { n with checkQueueTimer := none }
    n.queuedAddresses
  have hsub := sublist_foldl_filter_ne
    (((n.checkQueue E now).2.filter SendCall.sent).map SendCall.dst).reverse n.queuedAddresses
  rw [Node.checkQueue]
  dsimp only
  rw [hkept]
  exact hsub

/-! ### Steps -/

theorem follows_iff {now : Time} {d : Deferral} (he : x.event = .defer now d) :
    Follows x ↔ x.pre.queuedAddresses.head? = some d.header.destination ∨
      d.header.destination ∉ x.pre.queuedAddresses := by
  constructor
  · exact fun h => h now d he
  · rintro h now' d' he'
    obtain ⟨-, rfl⟩ := Event.defer.inj (he.symm.trans he')
    exact h

/-- A list without repetitions stays so unless a destination comes back after another. -/
theorem unrepeated_iff_follows (hx : Step E x) (h : x.pre.queuedAddresses.Nodup) :
    Unrepeated x ↔ Follows x := by
  unfold Step at hx
  split at hx
  · rename_i now d he
    obtain ⟨hout, es, hdefer⟩ := hx
    obtain ⟨added, queue, dropped, -, hpost, -⟩ := Node.deferredRouteOutput_ok hdefer
    have hlist : x.post.queuedAddresses =
        (d.header.destination :: x.pre.queuedAddresses).destutter (· ≠ ·) := by
      rw [hpost]
    rw [follows_iff he, ← nodup_destutter_ne_cons h, ← hlist]
    refine ⟨Unrepeated.pending, fun hpending => ⟨hpending, ?_⟩⟩
    rw [hout]
    exact List.nodup_nil
  · rename_i now he
    have hpost : x.post = (x.pre.checkQueue E now).1 := congrArg Prod.fst hx
    have hout : x.out = (x.pre.checkQueue E now).2 := congrArg Prod.snd hx
    refine iff_of_true ⟨?_, ?_⟩ fun _ _ hd => ?_
    · rw [hpost]
      exact h.sublist (sublist_checkQueue now)
    · rw [hout, map_dst_checkQueue]
      exact h
    · rw [he] at hd
      cases hd
  · rename_i node he
    obtain ⟨hkeeps, hpost, hout⟩ := hx
    refine iff_of_true ⟨?_, ?_⟩ fun _ _ hd => ?_
    · rw [hpost, hkeeps.queuedAddresses]
      exact h
    · rw [hout]
      exact List.nodup_nil
    · rw [he] at hd
      cases hd

theorem step_nodup (hx : Step E x) (hf : Follows x) (h : x.pre.queuedAddresses.Nodup) :
    x.post.queuedAddresses.Nodup := ((unrepeated_iff_follows hx h).mpr hf).pending

/-! ### Runs -/

theorem step_subset (hx : Step E x) :
    x.post.queuedAddresses ⊆ x.pre.queuedAddresses ++ destinations [x] := by
  unfold Step at hx
  split at hx
  · rename_i now d he
    obtain ⟨-, es, hdefer⟩ := hx
    obtain ⟨added, queue, dropped, -, hpost, -⟩ := Node.deferredRouteOutput_ok hdefer
    have hdest : destinations [x] = [d.header.destination] := by simp [destinations, he]
    intro a ha
    rw [hpost, mem_destutter_ne] at ha
    rw [hdest, List.mem_append, List.mem_singleton]
    exact (List.mem_cons.mp ha).symm
  · rename_i now he
    have hpost : x.post = (x.pre.checkQueue E now).1 := congrArg Prod.fst hx
    rw [hpost]
    exact fun a ha => List.mem_append_left _ ((sublist_checkQueue now).subset ha)
  · obtain ⟨hkeeps, hpost, -⟩ := hx
    rw [hpost, hkeeps.queuedAddresses]
    exact List.subset_append_left _ _

/-- Only destinations of packets that were deferred are pending. -/
theorem subset_destinations {s u : Node} {tr : List (Transition Node Event (List SendCall))}
    (hrun : Run (Step E) s tr u) : u.queuedAddresses ⊆ s.queuedAddresses ++ destinations tr := by
  induction hrun with
  | nil => exact List.subset_append_left _ _
  | @cons s u x tr hpre hstep _ ih =>
    subst hpre
    have hcons : destinations (x :: tr) = destinations [x] ++ destinations tr :=
      List.filterMap_append (l := [x])
    rw [hcons, ← List.append_assoc]
    intro a ha
    obtain ha | ha := List.mem_append.mp (ih ha)
    · exact List.mem_append_left _ (step_subset hstep ha)
    · exact List.mem_append_right _ ha

/-- In every run after Start the list has no repetitions exactly as long as no destination comes
back after another, and then it is no longer than there are destinations. -/
theorem unrepeated_iff {created : Credentials} {generated : Block SHARED_KEY_SIZE} {n u : Node}
    {tr : List (Transition Node Event (List SendCall))}
    (hrun : Run (Step E) (n.start created generated) tr u) :
    ((∀ x ∈ tr, Unrepeated x) ↔ ∀ x ∈ tr, Follows x) ∧
      ((∀ x ∈ tr, Follows x) → u.queuedAddresses.length ≤ (destinations tr).dedup.length) := by
  have hstart : (n.start created generated).queuedAddresses.Nodup := List.nodup_nil
  refine ⟨hrun.forall_iff (I := fun n => n.queuedAddresses.Nodup)
    (fun x hx h => unrepeated_iff_follows hx h) (fun x hx hf h => step_nodup hx hf h) hstart,
    fun hfollows => ?_⟩
  have hnodup : u.queuedAddresses.Nodup :=
    (hrun.invariant_of (I := fun n => n.queuedAddresses.Nodup)
      (fun x hx hf h => step_nodup hx hf h) hfollows hstart).1
  have hsub : u.queuedAddresses ⊆ (destinations tr).dedup := fun a ha =>
    List.mem_dedup.mpr (subset_destinations hrun ha)
  exact (hnodup.subperm hsub).length_le

/-! ### Two destinations -/

/-- A packet of one byte. -/
def packetTo (uid : UInt64) (dst : Ipv4Address) : Deferral :=
  ⟨⟨[1], uid, false⟩, ⟨.ofOctets 10 1 1 2, dst⟩, 1, 2⟩

def started : Node := (Sample.node 1).start (Sample.credentials 1) (Sample.fill _ [1])

theorem run_defer {n m : Node} {d : Deferral} {es : List Effect}
    (h : n.deferredRouteOutput 0 d.packet d.header d.ucb d.ecb = .ok (m, es)) :
    Run (Step Sample.env) n [⟨n, .defer 0 d, [], m⟩] m := by
  have hstep : Step Sample.env ⟨n, .defer 0 d, [], m⟩ := ⟨rfl, es, h⟩
  exact Run.single _ hstep

/-- Two packets for one destination after the other. -/
theorem unrepeated_iff_pair : ∃ tr u, Run (Step Sample.env) started tr u ∧
    tr.map Transition.event = [.defer 0 (packetTo 7 9), .defer 0 (packetTo 8 9)] ∧
    u.queuedAddresses = [9] ∧ ∀ x ∈ tr, Unrepeated x := by
  obtain ⟨m, u, h, h', hm, hu⟩ : ∃ m u,
      started.deferredRouteOutput 0 (packetTo 7 9).packet (packetTo 7 9).header 1 2 = .ok (m, []) ∧
      m.deferredRouteOutput 0 (packetTo 8 9).packet (packetTo 8 9).header 1 2 = .ok (u, []) ∧
      m.queuedAddresses = [9] ∧ u.queuedAddresses = [9] := ⟨_, _, rfl, rfl, rfl, rfl⟩
  have hrun := (run_defer h).append (run_defer h')
  refine ⟨_, u, hrun, rfl, hu, (unrepeated_iff hrun).1.mpr fun x hx => ?_⟩
  obtain rfl | rfl := List.mem_pair.mp hx
  · exact (follows_iff rfl).mpr (.inr List.not_mem_nil)
  · refine (follows_iff rfl).mpr (.inl ?_)
    rw [hm]
    rfl

/-- A packet for another destination comes between them. -/
theorem not_unrepeated : ∃ tr u, Run (Step Sample.env) started tr u ∧
    tr.map Transition.event = [.defer 0 (packetTo 7 9), .defer 0 (packetTo 7 8),
      .defer 0 (packetTo 8 9)] ∧
    u.queuedAddresses = [9, 8, 9] ∧
    (u.checkQueue Sample.env 0).2.map SendCall.dst = [9, 8, 9] ∧ ¬ ∀ x ∈ tr, Unrepeated x := by
  obtain ⟨m, k, u, h, h', h'', hu⟩ : ∃ m k u,
      started.deferredRouteOutput 0 (packetTo 7 9).packet (packetTo 7 9).header 1 2 = .ok (m, []) ∧
      m.deferredRouteOutput 0 (packetTo 7 8).packet (packetTo 7 8).header 1 2 = .ok (k, []) ∧
      k.deferredRouteOutput 0 (packetTo 8 9).packet (packetTo 8 9).header 1 2 = .ok (u, []) ∧
      u.queuedAddresses = [9, 8, 9] := ⟨_, _, _, rfl, rfl, rfl, rfl⟩
  refine ⟨_, u, (run_defer h).append ((run_defer h').append (run_defer h'')), rfl, hu, ?_, ?_⟩
  · rw [map_dst_checkQueue, hu]
  · intro hall
    have hpending := (hall ⟨k, .defer 0 (packetTo 8 9), [], u⟩ (by simp)).pending
    rw [hu] at hpending
    exact absurd hpending (by decide)

end Pending

end SAeroRP
