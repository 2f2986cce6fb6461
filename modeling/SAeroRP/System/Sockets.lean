import SAeroRP.System.Frame

/-! A node with the receive queues of its sockets. RouteInput delivers a control
message to the socket of the interface it came in on; RecvAERORP reads it there in
a later event, in the order of arrival on that socket. Between the two, other
packets may go through RouteInput. -/

namespace SAeroRP

open Library

/-- AERORP_PORT is the destination port in the UDP header. -/
def IsControl (p : Packet) : Prop := (p.bytes.drop 2).take 2 = [2, 154]

instance (p : Packet) : Decidable (IsControl p) := inferInstanceAs (Decidable (_ = _))

/-- What RecvFrom returns for a packet that arrived with the header. -/
def Packet.datagram (p : Packet) (header : Ipv4Header) : Datagram :=
  ⟨header.source, { p with bytes := p.bytes.drop 8 }⟩

structure Sockets where
  sys : Sys
  /-- What has been delivered to the socket of an interface and not been read. -/
  pending : ℕ → List (Packet × Ipv4Header)
  /-- History variable: the header of the packet that last went through RouteInput. -/
  last : Option Ipv4Header

namespace Sockets

inductive Event where
  | arrive (chance : Chance) (p : Packet) (header : Ipv4Header) (iif : ℕ)
      (ucb lcb ecb : Callback)
  | read (chance : Chance) (iif : ℕ)
  | other (e : SAeroRP.Event)

/-- The two events that go through the sockets. -/
def UsesSockets : SAeroRP.Event → Prop
  | .recv .. => True
  | .routeInput .. => True
  | _ => False

variable {β : Type} [Preorder β] [DecidableLT β] [DecidableEq β] [Zero β]

/-- `Does E s e t es`: in state `s` the event `e` may happen, leads to `t` and puts
out `es`. -/
inductive Does (E : Env β) (s : Sockets) : Event → Sockets → List Effect → Prop
  | arrive {chance : Chance} {p : Packet} {header : Ipv4Header} {iif : ℕ}
      {ucb lcb ecb : Callback} {r : RouteInputResult}
      (h : s.sys.node.routeInput E s.sys.now chance p header iif ucb lcb ecb = .ok r) :
      Does E s (.arrive chance p header iif ucb lcb ecb)
        { sys := { s.sys with node := r.node }
          pending :=
            if IsControl p ∧ Effect.lcb lcb p header iif ∈ r.effects then
              Function.update s.pending iif (s.pending iif ++ [(p, header)])
            else s.pending
          last := some header } r.effects
  | read {chance : Chance} {iif : ℕ} {p : Packet} {header : Ipv4Header}
      {rest : List (Packet × Ipv4Header)} {node : Node} {es : List Effect}
      (hp : s.pending iif = (p, header) :: rest)
      (h : s.sys.node.recvAERORP E s.sys.now chance (p.datagram header) = .ok (node, es)) :
      Does E s (.read chance iif)
        { s with
          sys := { s.sys with node }
          pending := Function.update s.pending iif rest } es
  | other {e : SAeroRP.Event} {t : Sys} {o : Output} (he : ¬ UsesSockets e)
      (h : Sys.Does E s.sys e t o) : Does E s (.other e) { s with sys := t } o.effects

def Step (E : Env β) (x : Transition Sockets Event (List Effect)) : Prop :=
  Does E x.pre x.event x.post x.out

theorem Does.run {E : Env β} {s t : Sockets} {e : Event} {es : List Effect}
    (h : Does E s e t es) : Run (Step E) s [⟨s, e, es, t⟩] t :=
  .single ⟨s, e, es, t⟩ h

/-- A read processes the first packet that waits at the socket. -/
theorem Does.of_read {E : Env β} {s t : Sockets} {chance : Chance} {iif : ℕ} {es : List Effect}
    (h : Does E s (.read chance iif) t es) :
    ∃ p header rest node, s.pending iif = (p, header) :: rest ∧
      s.sys.node.recvAERORP E s.sys.now chance (p.datagram header) = .ok (node, es) := by
  cases h with
  | read hp h => exact ⟨_, _, _, _, hp, h⟩

/-- The associated data with which a node verifies a secure message; other
messages are not verified. -/
def verifiedWith (n : Node) (d : Datagram) : Option (Block AAD_LENGTH) :=
  match d.messageType with
  | some .secureHello => if n.Ignores .secureHello then none else some n.gcmAadToBeChecked
  | some .secureGSGeoLocation =>
    if n.Ignores .secureGSGeoLocation then none else some n.gcmAadToBeChecked
  | _ => none

/-! ### The associated data -/

/-- Nothing has gone through RouteInput yet. -/
structure Fresh (s : Sockets) : Prop where
  last : s.last = none
  pending : ∀ iif, s.pending iif = []

/-- The associated data are those of the last packet, and what waits at a socket
went through RouteInput. -/
structure AadOfLast (s : Sockets) : Prop where
  aad : ∀ header, s.last = some header →
    s.sys.node.gcmAadToBeChecked = gcmAad header.source header.destination
  routed : s.last = none → ∀ iif, s.pending iif = []

theorem Fresh.aadOfLast {s : Sockets} (h : s.Fresh) : s.AadOfLast :=
  ⟨fun header hlast => by simp [h.last] at hlast, fun _ => h.pending⟩

/-- RouteInput sets the associated data before anything else, and no later part of
it writes them. -/
theorem aad_routeInput {E : Env β} {now : Time} {n : Node} {chance : Chance} {p : Packet}
    {header : Ipv4Header} {iif : ℕ} {ucb lcb ecb : Callback} {r : RouteInputResult}
    (h : n.routeInput E now chance p header iif ucb lcb ecb = .ok r) :
    r.node.gcmAadToBeChecked = gcmAad header.source header.destination := by
  unfold Node.routeInput at h
  dsimp only at h
  split_ifs at h
  · cases h
    rfl
  · obtain ⟨⟨m, es⟩, hm, h⟩ := bind_eq_ok.mp h
    obtain ⟨added, queue, dropped, -, rfl, -⟩ := Node.deferredRouteOutput_ok hm
    cases h
    rfl
  · cases h
    rfl
  · obtain ⟨⟨m, es⟩, hm, h⟩ := bind_eq_ok.mp h
    have hnode := Node.forwardNextHop_node E now header.destination
      { n with gcmAadToBeChecked := gcmAad header.source header.destination }
    cases h
    unfold Node.forwarding at hm
    split at hm <;> rename_i k heq <;> rw [heq] at hnode <;> subst hnode
    · cases hm
      rfl
    · obtain ⟨added, queue, dropped, -, rfl, -⟩ := Node.deferredRouteOutput_ok hm
      rfl

/-- Nothing but RouteInput writes the associated data. -/
theorem aad_does {E : Env β} {s t : Sys} {e : SAeroRP.Event} {o : Output} (he : ¬ UsesSockets e)
    (h : Sys.Does E s e t o) : t.node.gcmAadToBeChecked = s.node.gcmAadToBeChecked := by
  cases h with
  | advance => rfl
  | move => rfl
  | recv => exact absurd trivial he
  | routeOutput h => rcases Node.routeOutput_node h with hnode | hnode <;> rw [hnode]
  | routeInput => exact absurd trivial he
  | checkQueue =>
    obtain ⟨queue, neighbors, hcalls⟩ := Node.checkQueueCalls_frame s.now
      { s.node with checkQueueTimer := none } E s.node.queuedAddresses
    simp only [Node.checkQueue]
    rw [hcalls]
  | authenticationTimer => rfl

theorem aadOfLast_step {E : Env β} (x : Transition Sockets Event (List Effect)) (h : Step E x)
    (hpre : AadOfLast x.pre) : AadOfLast x.post := by
  obtain ⟨s, e, es, t⟩ := x
  replace h : Does E s e t es := h
  cases h with
  | arrive h =>
    refine ⟨fun header hlast => ?_, fun hlast => by cases hlast⟩
    cases hlast
    exact aad_routeInput h
  | @read chance iif p header rest node es hp h =>
    refine ⟨fun header hlast => ?_, fun hlast => ?_⟩
    · rw [(Node.recvAERORP_receives h).frame]
      exact hpre.aad header hlast
    · rw [hpre.routed hlast iif] at hp
      cases hp
  | other he h =>
    refine ⟨fun header hlast => ?_, hpre.routed⟩
    rw [aad_does he h]
    exact hpre.aad header hlast

end Sockets

end SAeroRP
