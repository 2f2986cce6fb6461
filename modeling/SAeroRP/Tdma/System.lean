import SAeroRP.Library.Run
import SAeroRP.Tdma.CentralMac

/-! The controller and its MACs in simulated time. Events are pending until their
time has come, and time does not pass a pending event. Between and during the
events the layers above the MACs change the queues; what they may do is a
parameter. -/

namespace SAeroRP

open Library

/-- A time span in which the controller lets a MAC transmit. -/
structure Grant where
  mac : MacPtr
  start : Time
  stop : Time

/-- A pending call of SendPacketDown. -/
structure PendingSend where
  mac : MacPtr
  due : Time
  remainingTime : Time
  peeked : Item
  deriving DecidableEq

/-- The pending call for what StartTransmission of a MAC scheduled. -/
def TdmaCentralMac.SendEvent.pending (now : Time) (mac : MacPtr) (d : SendEvent) : PendingSend :=
  ⟨mac, now + d.delay, d.remainingTime, d.peeked⟩

/-- A call that is scheduled comes later, and its time and the time that remains make up
the time that was granted. -/
theorem TdmaCentralMac.due_of_startTransmission {c : TdmaController} {now : Time} {us : ℤ}
    {q q' : TdmaMacQueue} {d : SendEvent}
    (h : startTransmission c now us q = .ok (q', some d)) (mac : MacPtr) :
    now ≤ (d.pending now mac).due ∧ 0 < (d.pending now mac).remainingTime ∧
      (d.pending now mac).due + (d.pending now mac).remainingTime = now + Time.microSeconds us := by
  obtain ⟨-, -, -, hdelay, hlt, hremaining⟩ := startTransmission_some h
  simp only [SendEvent.pending, hremaining]
  refine ⟨?_, ?_, ?_⟩ <;> linarith

structure Tdma where
  now : Time
  activeEpoch : Bool := false
  /-- The pending session events. -/
  sessions : List (Time × SessionEvent) := []
  sends : List PendingSend := []
  queues : MacPtr → TdmaMacQueue
  /-- What was granted so far, the last grant at the end. -/
  granted : List Grant := []

namespace Tdma

/-- Nothing has been started. -/
structure Idle (s : Tdma) : Prop where
  activeEpoch : s.activeEpoch = false
  sessions : s.sessions = []
  sends : s.sends = []
  granted : s.granted = []

/-- TdmaController::Start. -/
def start (s : Tdma) : Tdma :=
  if s.activeEpoch then s
  else { s with
    activeEpoch := true
    sessions := s.sessions ++ [(s.now + 10, .startTdmaSessions)] }

inductive Event where
  | advance (dt : Time)
  | start
  | session (p : Time × SessionEvent)
  | sendPacketDown (d : PendingSend)
  /-- The layer above changes the queue of a MAC. -/
  | change (mac : MacPtr)

variable (c : TdmaController) (change : Time → TdmaMacQueue → TdmaMacQueue → Prop)

/-- `Does c change s e t frames`: in state `s` the event `e` may happen, leads to `t`
and hands the frames to the channel. -/
inductive Does (s : Tdma) : Event → Tdma → List Frame → Prop
  | advance {dt : Time} (hdt : 0 ≤ dt) (hsessions : ∀ p ∈ s.sessions, s.now + dt ≤ p.1)
      (hsends : ∀ d ∈ s.sends, s.now + dt ≤ d.due) :
      Does s (.advance dt) { s with now := s.now + dt } []
  | start : Does s .start s.start []
  | session {p : Time × SessionEvent} {r : Session} {q : TdmaMacQueue}
      {d : Option TdmaCentralMac.SendEvent} (hp : p ∈ s.sessions) (hdue : p.1 = s.now)
      (h : c.scheduleTdmaSession p.2.slotNum = .ok r)
      (hsend : TdmaCentralMac.startTransmission c s.now r.transmissionSlot.getMicroSeconds
        (s.queues r.mac) = .ok (q, d)) :
      Does s (.session p)
        { s with
          sessions := s.sessions.erase p ++ [(s.now + r.delay, r.next)]
          sends := s.sends ++ (d.map (·.pending s.now r.mac)).toList
          queues := Function.update s.queues r.mac q
          granted := s.granted ++ [⟨r.mac, s.now, s.now + r.transmissionSlot⟩] } []
  | sendPacketDown {d : PendingSend} {frame : Frame} {q q' q'' : TdmaMacQueue}
      {d' : Option TdmaCentralMac.SendEvent} (hd : d ∈ s.sends) (hdue : d.due = s.now)
      (h : TdmaCentralMac.sendPacketDown s.now (s.queues d.mac) = .ok (frame, q))
      (hchange : change s.now q q')
      (hsend : TdmaCentralMac.startTransmission c s.now d.remainingTime.getMicroSeconds q' =
        .ok (q'', d')) :
      Does s (.sendPacketDown d)
        { s with
          sends := s.sends.erase d ++ (d'.map (·.pending s.now d.mac)).toList
          queues := Function.update s.queues d.mac q'' } [frame]
  | change {mac : MacPtr} {q : TdmaMacQueue} (h : change s.now (s.queues mac) q) :
      Does s (.change mac) { s with queues := Function.update s.queues mac q } []

variable {c change} in
theorem Does.due {s t : Tdma} {d : PendingSend} {frames : List Frame}
    (h : Does c change s (.sendPacketDown d) t frames) : d ∈ s.sends ∧ d.due = s.now := by
  cases h with
  | sendPacketDown hd hdue => exact ⟨hd, hdue⟩

/-- What the layers above may do may be more. -/
theorem Does.mono {c : TdmaController} {change change' : Time → TdmaMacQueue → TdmaMacQueue → Prop}
    (hchange : ∀ now q q', change now q q' → change' now q q') {s t : Tdma} {e : Event}
    {frames : List Frame} (h : Does c change s e t frames) : Does c change' s e t frames := by
  cases h with
  | advance hdt hsessions hsends => exact .advance hdt hsessions hsends
  | start => exact .start
  | session hp hdue h hsend => exact .session hp hdue h hsend
  | sendPacketDown hd hdue h hq hsend => exact .sendPacketDown hd hdue h (hchange _ _ _ hq) hsend
  | change h => exact .change (hchange _ _ _ h)

def Step (x : Transition Tdma Event (List Frame)) : Prop :=
  Does c change x.pre x.event x.post x.out

end Tdma

end SAeroRP
