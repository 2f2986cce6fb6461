import SAeroRP.Library.Run
import SAeroRP.Routing.RecvAERORP
import SAeroRP.Routing.RouteInput

/-! One node under the simulator. Events come in any order: time passes, the node
moves, control messages arrive, packets of its own ask for routes, other packets
come in, and its timers expire. Time does not pass an expiry of CheckQueueTimer,
and CheckQueue runs at that time. A call that faults is not a step. The timers that
send advertisements change nothing of the node, and its interfaces stay up, so
neither is an event. -/

namespace SAeroRP

open Library

structure Sys where
  now : Time
  node : Node

inductive Event where
  | advance (dt : Time)
  | move (position velocity : Vector3D)
  | recv (chance : Chance) (d : Datagram)
  | routeOutput (chance : Chance) (p : Option Packet) (header : Ipv4Header)
      (oif : Option NetDevice) (sockerr : SocketErrno)
  | routeInput (chance : Chance) (p : Packet) (header : Ipv4Header) (iif : ℕ)
      (ucb lcb ecb : Callback)
  | checkQueue
  | authenticationTimer (chance : Chance)

/-- What a step shows: its effects, the result of RouteOutput, and the calls of
SendPacketFromQueue that CheckQueue made. -/
structure Output where
  effects : List Effect := []
  routed : Option RouteOutputResult := none
  calls : List SendCall := []

namespace Sys

variable {β : Type} [Preorder β] [DecidableLT β] [DecidableEq β] [Zero β]

/-- `Does E s e t o`: in state `s` the event `e` may happen, leads to `t` and
shows `o`. -/
inductive Does (E : Env β) (s : Sys) : Event → Sys → Output → Prop
  | advance {dt : Time} (hdt : 0 ≤ dt)
      (htimer : ∀ t, s.node.checkQueueTimer = some t → s.now + dt ≤ t) :
      Does E s (.advance dt) { s with now := s.now + dt } {}
  | move (position velocity : Vector3D) :
      Does E s (.move position velocity) { s with node := { s.node with position, velocity } } {}
  | recv {chance : Chance} {d : Datagram} {node : Node} {effects : List Effect}
      (h : s.node.recvAERORP E s.now chance d = .ok (node, effects)) :
      Does E s (.recv chance d) { s with node } { effects }
  | routeOutput {chance : Chance} {p : Option Packet} {header : Ipv4Header}
      {oif : Option NetDevice} {sockerr : SocketErrno} {r : RouteOutputResult}
      (h : s.node.routeOutput E s.now chance p header oif sockerr = .ok r) :
      Does E s (.routeOutput chance p header oif sockerr) { s with node := r.node }
        { routed := some r }
  | routeInput {chance : Chance} {p : Packet} {header : Ipv4Header} {iif : ℕ}
      {ucb lcb ecb : Callback} {r : RouteInputResult}
      (h : s.node.routeInput E s.now chance p header iif ucb lcb ecb = .ok r) :
      Does E s (.routeInput chance p header iif ucb lcb ecb) { s with node := r.node }
        { effects := r.effects }
  | checkQueue (htimer : s.node.checkQueueTimer = some s.now) :
      Does E s .checkQueue { s with node := (s.node.checkQueue E s.now).1 }
        { effects := (s.node.checkQueue E s.now).2.flatMap SendCall.effects
          calls := (s.node.checkQueue E s.now).2 }
  | authenticationTimer {chance : Chance} {effects : List Effect}
      (h : s.node.sendAuthenticationRequestPacket E s.now chance = .ok effects) :
      Does E s (.authenticationTimer chance) s { effects }

/-- A step of the node. A call that faults has no result, and is not a step. -/
def Step (E : Env β) (x : Transition Sys Event Output) : Prop :=
  Does E x.pre x.event x.post x.out

/-! ### Execution -/

/-- The step an event is in a state, if it is one. -/
def perform (E : Env β) (s : Sys) : Event → Option (Sys × Output)
  | .advance dt =>
    if 0 ≤ dt ∧ s.node.checkQueueTimer.all (s.now + dt ≤ ·) then
      some ({ s with now := s.now + dt }, {})
    else none
  | .move position velocity => some ({ s with node := { s.node with position, velocity } }, {})
  | .recv chance d =>
    match s.node.recvAERORP E s.now chance d with
    | .error _ => none
    | .ok (node, effects) => some ({ s with node }, { effects })
  | .routeOutput chance p header oif sockerr =>
    match s.node.routeOutput E s.now chance p header oif sockerr with
    | .error _ => none
    | .ok r => some ({ s with node := r.node }, { routed := some r })
  | .routeInput chance p header iif ucb lcb ecb =>
    match s.node.routeInput E s.now chance p header iif ucb lcb ecb with
    | .error _ => none
    | .ok r => some ({ s with node := r.node }, { effects := r.effects })
  | .checkQueue =>
    if s.node.checkQueueTimer = some s.now then
      some ({ s with node := (s.node.checkQueue E s.now).1 },
        { effects := (s.node.checkQueue E s.now).2.flatMap SendCall.effects
          calls := (s.node.checkQueue E s.now).2 })
    else none
  | .authenticationTimer chance =>
    match s.node.sendAuthenticationRequestPacket E s.now chance with
    | .error _ => none
    | .ok effects => some (s, { effects })

theorem does_iff_perform {E : Env β} {s t : Sys} {e : Event} {o : Output} :
    Does E s e t o ↔ perform E s e = some (t, o) := by
  constructor
  · intro h
    cases h with
    | @advance dt hdt htimer =>
      have hall : s.node.checkQueueTimer.all (s.now + dt ≤ ·) = true := by
        cases ht : s.node.checkQueueTimer with
        | none => rfl
        | some t => exact decide_eq_true (htimer t ht)
      rw [perform, if_pos ⟨hdt, hall⟩]
    | move => rfl
    | recv h => rw [perform, h]
    | routeOutput h => rw [perform, h]
    | routeInput h => rw [perform, h]
    | checkQueue htimer => rw [perform, if_pos htimer]
    | authenticationTimer h => rw [perform, h]
  · intro h
    cases e with
    | advance dt =>
      simp only [perform] at h
      split_ifs at h with hadv
      cases h
      refine .advance hadv.1 fun t ht => ?_
      have hall := hadv.2
      rw [ht] at hall
      exact of_decide_eq_true hall
    | move position velocity =>
      cases h
      exact .move position velocity
    | recv chance d =>
      simp only [perform] at h
      split at h <;> cases h
      exact .recv ‹_›
    | routeOutput chance p header oif sockerr =>
      simp only [perform] at h
      split at h <;> cases h
      exact .routeOutput ‹_›
    | routeInput chance p header iif ucb lcb ecb =>
      simp only [perform] at h
      split at h <;> cases h
      exact .routeInput ‹_›
    | checkQueue =>
      simp only [perform] at h
      split_ifs at h with htimer
      cases h
      exact .checkQueue htimer
    | authenticationTimer chance =>
      simp only [perform] at h
      split at h <;> cases h
      exact .authenticationTimer ‹_›

/-- The transitions a list of events leads through, if all of them can happen. -/
def execute (E : Env β) : Sys → List Event → Option (List (Transition Sys Event Output) × Sys)
  | s, [] => some ([], s)
  | s, e :: es =>
    match perform E s e with
    | none => none
    | some (t, o) => (execute E t es).map fun r => (⟨s, e, o, t⟩ :: r.1, r.2)

theorem run_of_execute {E : Env β} {s u : Sys} {es : List Event}
    {tr : List (Transition Sys Event Output)} (h : execute E s es = some (tr, u)) :
    Run (Step E) s tr u := by
  induction es generalizing s tr with
  | nil =>
    cases h
    exact .nil _
  | cons e es ih =>
    rw [execute] at h
    split at h
    · cases h
    · rename_i t o hperform
      obtain ⟨⟨tr', u'⟩, htail, hcons⟩ := Option.map_eq_some_iff.mp h
      cases hcons
      exact .cons rfl (does_iff_perform.mpr hperform) (ih htail)

/-- Finding a transition by evaluation. -/
theorem exists_of_execute {E : Env β} {s : Sys} {es : List Event}
    {f : Transition Sys Event Output → Bool}
    (h : (execute E s es).any (fun r => r.1.any f) = true) :
    ∃ tr u, execute E s es = some (tr, u) ∧ ∃ x ∈ tr, f x = true := by
  cases hr : execute E s es with
  | none =>
    rw [hr] at h
    cases h
  | some r =>
    rw [hr] at h
    exact ⟨r.1, r.2, rfl, List.any_eq_true.mp h⟩

/-- Finding a run by evaluation. -/
theorem exists_run_of_execute {E : Env β} {s : Sys} {es : List Event} {f : Sys → Bool}
    (h : (execute E s es).any (fun r => f r.2) = true) :
    ∃ tr u, Run (Step E) s tr u ∧ f u = true := by
  cases hr : execute E s es with
  | none =>
    rw [hr] at h
    cases h
  | some r =>
    rw [hr] at h
    exact ⟨r.1, r.2, run_of_execute hr, h⟩

end Sys

end SAeroRP
