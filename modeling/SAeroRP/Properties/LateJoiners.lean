import SAeroRP.Properties.Freshness
import SAeroRP.Properties.KeyAgreement
import SAeroRP.Properties.LiveGateways
import SAeroRP.System.Fleet

/-! The key exchange after the first five seconds. No authentication message is accepted any more,
so keys stay what they are, requests are not answered, and a node that was not authenticated by
then never is. One that starts later hears nobody, and hands out no packet. -/

namespace SAeroRP

open Library

variable {β : Type}

namespace Node

section
variable {E : Env β} {now : Time} {chance : Chance} {d : Datagram} {n m : Node} {es : List Effect}

theorem requestValid_late (hlate : Time.seconds 5 < now) (hdr : AuthenticationRequestHeader) :
    n.requestValid E now hdr ≠ .ok true := by
  intro h
  have hfresh := ((Freshness.requestValid_eq_true E now n hdr).mp h).2.1
  exact absurd ((Freshness.accepts_iff _ _).mp hfresh) (not_le.mpr hlate)

theorem replyAccepted_late (hlate : Time.seconds 5 < now) (hdr : AuthenticationReplyHeader) :
    n.replyAccepted E now hdr ≠ .ok true := by
  intro h
  obtain ⟨valid, hvalid, h⟩ := bind_eq_ok.mp h
  split at h
  · cases h
  · have hboth : (valid && verifyRandomNo hdr.oldRandomNo _) = true := Except.ok.inj h
    rw [(Bool.and_eq_true_iff.mp hboth).1] at hvalid
    have hfresh := ((Freshness.replyValid_eq_true E now n hdr).mp hvalid).2.1
    exact absurd ((Freshness.accepts_iff _ _).mp hfresh) (not_le.mpr hlate)

/-- A late reply does no more than revoke. -/
theorem processReply_late (hlate : Time.seconds 5 < now) {hdr : AuthenticationReplyHeader}
    (h : n.processReply E now hdr = .ok (m, es)) :
    m = { n with authenticationStatus := .unauth } := by
  rcases (processReply_ok h).2 with ⟨c, k, haccepted, -⟩ | ⟨-, hm⟩
  · exact absurd haccepted (replyAccepted_late hlate hdr)
  · exact hm

/-- A late message leaves the node as it is or revokes, or it carries positions and the node lets
it in. -/
theorem recvAERORP_late (hlate : Time.seconds 5 < now)
    (h : n.recvAERORP E now chance d = .ok (m, es)) :
    m = n ∨ m = { n with authenticationStatus := .unauth } ∨
      (SameKeys n m ∧ ∃ type, CarriesPosition type ∧ ¬ n.Ignores type) := by
  rcases recvAERORP_ok h with ⟨hm, -⟩ | ⟨type, -, hgate, h⟩
  · exact .inl hm
  have hkeys := (recvMessage_receives h).2
  cases type with
  | gsTopology =>
    cases h
    exact .inl rfl
  | authenticationRequest =>
    obtain ⟨⟨hdr, rest⟩, -, h⟩ := bind_eq_ok.mp h
    exact .inl (processRequest_ok h).1
  | authenticationReply =>
    obtain ⟨⟨hdr, rest⟩, -, h⟩ := bind_eq_ok.mp h
    exact .inr (.inl (processReply_late hlate h))
  | hello => exact .inr (.inr ⟨hkeys (by simp), _, .inl rfl, hgate⟩)
  | gsGeoLocation => exact .inr (.inr ⟨hkeys (by simp), _, .inr (.inl rfl), hgate⟩)
  | secureHello => exact .inr (.inr ⟨hkeys (by simp), _, .inr (.inr (.inl rfl)), hgate⟩)
  | secureGSGeoLocation => exact .inr (.inr ⟨hkeys (by simp), _, .inr (.inr (.inr rfl)), hgate⟩)

/-- No late request is answered. -/
theorem not_isSend_recvAERORP_late (hlate : Time.seconds 5 < now)
    (h : n.recvAERORP E now chance d = .ok (m, es)) : ∀ e ∈ es, ¬ e.IsSend := by
  rcases recvAERORP_effects h with rfl | ⟨_, _, _, rfl⟩ | ⟨_, _, _, rfl⟩ | ⟨hdr, _, _, -, -, hvalid, -⟩
  · simp
  · simp [Effect.IsSend]
  · simp [Effect.IsSend]
  · exact absurd hvalid (requestValid_late hlate hdr)

end

/-- The node is not authenticated in secure mode, and knows nobody. -/
structure Deaf (n : Node) : Prop where
  securityState : n.securityState = true
  unauth : n.authenticationStatus = .unauth
  neighbors : n.neighbors.table = ∅
  nodesPosition : n.nodesPosition.table = ∅

end Node

namespace Sys

variable [Preorder β] [DecidableLT β] [DecidableEq β] [Zero β] {E : Env β} {s t u : Sys}
  {e : Event} {o : Output} {tr : List (Transition Sys Event Output)}

theorem Does.now_le (h : Does E s e t o) : s.now ≤ t.now := by
  cases h with
  | advance hdt => linarith
  | _ => exact le_rfl

/-! ### Closed exchanges -/

/-- The keys are those of `s`, and the node is authenticated only if it was. -/
structure Closed (s t : Sys) : Prop where
  late : Time.seconds 5 < t.now
  sharedKey : t.node.sharedKey = s.node.sharedKey
  auth : t.node.authenticationStatus = .auth → s.node.authenticationStatus = .auth

theorem Closed.of_sameKeys (hs : Closed s t) (h : t.node.SameKeys u.node) (hle : t.now ≤ u.now) :
    Closed s u :=
  ⟨hs.late.trans_le hle, h.sharedKey.trans hs.sharedKey, fun hu =>
    hs.auth (h.authenticationStatus ▸ hu)⟩

theorem Closed.does (hs : Closed s t) (h : Does E t e u o) : Closed s u := by
  have hle := h.now_le
  cases h with
  | advance => exact hs.of_sameKeys ⟨rfl, rfl⟩ hle
  | move => exact hs.of_sameKeys ⟨rfl, rfl⟩ hle
  | recv h =>
    rcases Node.recvAERORP_late hs.late h with rfl | rfl | ⟨hkeys, -⟩
    · exact hs
    · exact ⟨hs.late, hs.sharedKey, fun hauth => by cases hauth⟩
    · exact hs.of_sameKeys hkeys hle
  | routeOutput h => exact hs.of_sameKeys (Node.routeOutput_routes h).sameKeys hle
  | routeInput h => exact hs.of_sameKeys (Node.routeInput_routes h).sameKeys hle
  | checkQueue => exact hs.of_sameKeys Node.checkQueue_routes.sameKeys hle
  | authenticationTimer => exact hs

/-- After five seconds, whatever messages come, the key of a node stays as it is, a node that is
not authenticated never becomes it, and no message is answered. -/
theorem exchange_closed (hlate : Time.seconds 5 < s.now) (h : Run (Step E) s tr u) :
    u.node.sharedKey = s.node.sharedKey ∧
      (u.node.authenticationStatus = .auth → s.node.authenticationStatus = .auth) ∧
      ∀ x ∈ tr, (∀ chance, x.event ≠ .authenticationTimer chance) →
        ∀ eff ∈ x.out.effects, ¬ eff.IsSend := by
  obtain ⟨hu, hall⟩ := h.invariant (I := Closed s) (fun _ hx hpre => hpre.does hx)
    ⟨hlate, rfl, id⟩
  refine ⟨hu.sharedKey, hu.auth, fun x hx hne eff heff => ?_⟩
  have hstep : Does E x.pre x.event x.post x.out := h.step_of_mem x hx
  by_cases hrecv : ∃ chance d, x.event = .recv chance d
  · obtain ⟨chance, d, he⟩ := hrecv
    rw [he] at hstep
    have hlate' := (hall x hx).late
    generalize x.out = o at hstep heff
    generalize x.post = t at hstep
    cases hstep with
    | recv hrecv => exact Node.not_isSend_recvAERORP_late hlate' hrecv eff heff
  · push Not at hrecv
    exact hstep.not_isSend hrecv hne eff heff

/-- Node 1 gets the reply a second too late. -/
theorem exchange_closed_sample : ∃ tr u, Run (Step Sample.env)
    ⟨Time.seconds 6, Sample.secureNode 1⟩ tr u ∧
    tr.map Transition.event = [.recv Sample.chance KeyAgreement.replyDatagram] ∧
    u.node.sharedKey = (Sample.secureNode 1).sharedKey ∧ u.node.authenticationStatus ≠ .auth := by
  have hany : ((Sample.secureNode 1).recvAERORP Sample.env (Time.seconds 6) Sample.chance
      KeyAgreement.replyDatagram).toOption.any (fun _ => true) = true := by
    decide +kernel
  obtain ⟨q, hq, -⟩ := exists_of_any hany
  have hstep : Does Sample.env ⟨Time.seconds 6, Sample.secureNode 1⟩ _ _ _ := .recv hq
  have hrun : Run (Step Sample.env) _ _ _ := Run.single ⟨_, _, _, _⟩ hstep
  have hclosed := exchange_closed (show Time.seconds 5 < Time.seconds 6 by decide) hrun
  exact ⟨_, _, hrun, rfl, hclosed.1, fun hauth => by cases hclosed.2.1 hauth⟩

/-! ### Late joiners -/

/-- The transition hands no packet to a next hop. -/
structure HandsOutNone (x : Transition Sys Event Output) : Prop where
  routed : ∀ r, x.out.routed = some r → r.nextHop = none
  effects : Effect.gateways x.out.effects = []

/-- A node that knows nobody after the first five seconds. -/
structure Isolated (s : Sys) : Prop where
  late : Time.seconds 5 < s.now
  deaf : s.node.Deaf

theorem Isolated.timely (hs : s.Isolated) : s.Timely where
  now := by
    have hpos : (0 : ℤ) ≤ Time.seconds 5 := by decide
    exact hpos.trans hs.late.le
  neighbors a e he := by simp [hs.deaf.neighbors] at he
  nodesPosition a e he := by simp [hs.deaf.nodesPosition] at he

theorem isNeighbour_of_empty {t : NeighborTable} (h : t.table = ∅) (a : Ipv4Address) :
    t.isNeighbour a = false := by
  simp [NeighborTable.isNeighbour, h]

theorem table_purge_of_empty {now : Time} {t : NeighborTable} (h : t.table = ∅) :
    (t.purge now).table = ∅ := by
  simp [NeighborTable.purge, EntryTable.purge, h]

theorem deaf_of_keepsTables {now : Time} {n m : Node} (hn : n.Deaf) (h : n.KeepsTables now m)
    (hsecure : m.securityState = n.securityState)
    (hauth : m.authenticationStatus = n.authenticationStatus) : m.Deaf where
  securityState := hsecure.trans hn.securityState
  unauth := hauth.trans hn.unauth
  neighbors := by
    rcases h.neighbors with heq | heq <;> rw [heq]
    · exact hn.neighbors
    · exact table_purge_of_empty hn.neighbors
  nodesPosition := by
    rw [h.nodesPosition]
    exact hn.nodesPosition

theorem Isolated.does (hs : s.Isolated) (h : Does E s e t o) : t.Isolated := by
  refine ⟨hs.late.trans_le h.now_le, ?_⟩
  by_cases hrecv : ∃ chance d, e = .recv chance d
  · obtain ⟨chance, d, rfl⟩ := hrecv
    cases h with
    | recv h =>
      rcases Node.recvAERORP_late hs.late h with rfl | rfl | ⟨-, type, hcarries, hgate⟩
      · exact hs.deaf
      · exact ⟨hs.deaf.securityState, rfl, hs.deaf.neighbors, hs.deaf.nodesPosition⟩
      · exact absurd ⟨hs.deaf.unauth, hs.deaf.securityState, hcarries⟩ hgate
  · push Not at hrecv
    exact deaf_of_keepsTables hs.deaf (h.keepsTables hrecv) h.sameConfig.securityState
      (h.sameKeys hrecv).authenticationStatus

theorem node_of_routed {x : Transition Sys Event Output} (hx : Step E x) {r : RouteOutputResult}
    (hr : x.out.routed = some r) : r.node = x.post.node := by
  obtain ⟨s, e, o, t⟩ := x
  replace hx : Does E s e t o := hx
  cases hx with
  | routeOutput =>
    cases hr
    rfl
  | _ => cases hr

theorem effects_of_checkQueue {x : Transition Sys Event Output} (hx : Step E x)
    (he : x.event = .checkQueue) : x.out.effects = x.out.calls.flatMap SendCall.effects := by
  obtain ⟨s, e, o, t⟩ := x
  cases he
  replace hx : Does E s .checkQueue t o := hx
  cases hx with
  | checkQueue => rfl

/-- Without neighbours there is no next hop. -/
theorem Isolated.handsOutNone {x : Transition Sys Event Output} (hx : Step E x)
    (hs : x.pre.Isolated) : HandsOutNone x := by
  have hpost : x.post.Isolated := hs.does hx
  have hcall : ∀ c ∈ x.out.calls, c.pre.neighbors.table = ∅ ∧ c.post.neighbors.table = ∅ := by
    intro c hc
    obtain ⟨k, dst, hk, rfl⟩ := calls_of_step hx c hc
    have hempty : k.neighbors.table = ∅ := by
      rcases hk.neighbors with heq | heq <;> rw [heq]
      · exact hs.deaf.neighbors
      · exact table_purge_of_empty hs.deaf.neighbors
    refine ⟨by rwa [Node.sendPacketFromQueue_pre], ?_⟩
    rcases (Node.sendPacketFromQueue_routes (E := E) dst).neighbors with heq | heq <;> rw [heq]
    · exact hempty
    · exact table_purge_of_empty hempty
  have hlive := (LiveGateways.gatewaysLive_iff hx hs.timely).mpr fun c hc hstale => by
    have hneighbour := hstale.1
    rw [isNeighbour_of_empty (hcall c hc).1] at hneighbour
    cases hneighbour
  have hnone : ∀ {t : NeighborTable}, t.table = ∅ → ∀ a, ¬ t.Live x.pre.now a := by
    rintro t ht a ⟨e, he, -⟩
    simp [ht] at he
  have hlist : ∀ {l : List Ipv4Address} {t : NeighborTable}, t.table = ∅ →
      (∀ a ∈ l, t.Live x.pre.now a) → l = [] := fun ht hl =>
    List.eq_nil_iff_forall_not_mem.mpr fun a ha => hnone ht a (hl a ha)
  refine ⟨fun r hr => ?_, ?_⟩
  · rw [Option.eq_none_iff_forall_ne_some]
    intro a ha
    refine hnone ?_ a (hlive.routed r hr a ha)
    rw [node_of_routed hx hr]
    exact hpost.deaf.neighbors
  · by_cases hcheck : x.event = .checkQueue
    · rw [effects_of_checkQueue hx hcheck, Effect.gateways, List.filterMap_flatMap,
        List.flatMap_eq_nil_iff]
      exact fun c hc => hlist (hcall c hc).2 (hlive.queued c hc)
    · exact hlist hpost.deaf.neighbors (hlive.forwarded hcheck)

/-- A node that starts in secure mode after the first five seconds hears nobody, whatever comes,
and hands no packet to a next hop, whatever it is given. -/
theorem late_joiner_deaf {created : Credentials} {generated : Block SHARED_KEY_SIZE} {n : Node}
    {now : Time} (hsecure : n.securityState = true) (hairborne : n.isGroundStation = false)
    (hneighbors : n.neighbors.table = ∅) (hpositions : n.nodesPosition.table = ∅)
    (hlate : Time.seconds 5 < now)
    (h : Run (Step E) ⟨now, n.start created generated⟩ tr u) :
    u.node.Deaf ∧ ∀ x ∈ tr, HandsOutNone x := by
  have hstart : n.start created generated =
      { n.authenticationIntialize created with queuedAddresses := [] } := by
    simp [Node.start, hsecure, hairborne, Node.authenticationIntialize]
  have hs : Isolated ⟨now, n.start created generated⟩ := by
    rw [hstart]
    exact ⟨hlate, hsecure, rfl, hneighbors, hpositions⟩
  have hall := h.invariant (fun _ hx hpre => hpre.does hx) hs
  exact ⟨hall.1.deaf, fun x hx => (hall.2 x hx).handsOutNone (h.step_of_mem x hx)⟩

/-- Node 1 joins after six seconds. A HELLO of the destination arrives, and a packet for it is
deferred. -/
def lateEvents : List Event :=
  [.recv Sample.chance (Sample.datagram .hello (List.replicate 25 0)),
    .routeInput Sample.chance ⟨[], 5, true⟩ ⟨.ofOctets 10 1 1 2, .ofOctets 10 1 1 9⟩ 0 0 0 0,
    .advance (Time.milliSeconds 500), .checkQueue]

theorem late_joiner_deaf_sample : ∃ tr u, Run (Step Sample.env)
    ⟨Time.seconds 6, Sample.secureNode 1⟩ tr u ∧ u.node.queue.entries ≠ [] ∧ u.node.Deaf ∧
    ∀ x ∈ tr, HandsOutNone x := by
  obtain ⟨tr, u, hrun, hu⟩ := exists_run_of_execute (E := Sample.env)
    (s := ⟨Time.seconds 6, Sample.secureNode 1⟩) (f := fun u => u.node.queue.entries ≠ [])
    (show (execute Sample.env _ lateEvents).any _ = true by decide +kernel)
  exact ⟨tr, u, hrun, of_decide_eq_true hu, late_joiner_deaf rfl rfl rfl rfl (by decide) hrun⟩

end Sys

end SAeroRP
