import SAeroRP.System.Handshake
import SAeroRP.System.Timers

/-! The key exchange of a ground station and airborne nodes that run on their own timers, on a
network that delivers the messages of the exchange within a bounded delay. Everything else a node
does, and every other message it gets, is arbitrary. -/

namespace SAeroRP

open Library

/-- The message is one of the key exchange. -/
def Datagram.IsAuthentication (d : Datagram) : Prop :=
  d.messageType = some .authenticationRequest ∨ d.messageType = some .authenticationReply

instance (d : Datagram) : Decidable d.IsAuthentication := inferInstanceAs (Decidable (_ ∨ _))

/-- A message of the key exchange on its way, and the time by which it arrives. -/
structure Letter where
  message : Message
  deadline : Time
  deriving DecidableEq

/-- The network makes the letters `ls` of what the node puts out at time `now`, for a delay of at
most `d`. -/
structure Posts (d now : Time) (n : Node) (es : List Effect) (ls : List Letter) : Prop where
  message : ∃ chance, ls.map Letter.message =
    (Effect.posted chance n es).filter fun m => m.datagram.IsAuthentication
  deadline : ∀ l ∈ ls, now ≤ l.deadline ∧ l.deadline ≤ now + d

structure Enrolment (ι : Type) where
  now : Time
  nodes : Party ι → Advertiser
  inFlight : List Letter := []

namespace Enrolment

variable {ι : Type} [DecidableEq ι]

inductive Event (ι : Type) where
  | advance (dt : Time)
  | act (p : Party ι) (e : Advertiser.Event)
  | deliver (chance : Chance) (p : Party ι) (l : Letter)

/-- The events of a node other than the clock and the messages of the key exchange. -/
def IsLocal : Advertiser.Event → Prop
  | .advance _ => False
  | .call (.recv _ d) => ¬ d.IsAuthentication
  | _ => True

variable {β : Type} [Preorder β] [DecidableLT β] [DecidableEq β] [Zero β]

/-- `Does E I outOfRange R d s e t ls`: in state `s` the event `e` may happen, leads to `t` and
puts the letters `ls` in flight. Start gives a node the credentials of the roster. -/
inductive Does (E : Env β) (I : Intervals) (outOfRange : ℚ → UInt32) (R : Roster ι) (d : Time)
    (s : Enrolment ι) : Event ι → Enrolment ι → List Letter → Prop
  | advance {dt : Time}
      (hnodes : ∀ p, Advertiser.Does E I outOfRange (s.nodes p) (.advance dt)
        { s.nodes p with now := (s.nodes p).now + dt } [])
      (hletters : ∀ l ∈ s.inFlight, s.now + dt ≤ l.deadline) :
      Does E I outOfRange R d s (.advance dt)
        { s with
          now := s.now + dt
          nodes := fun p => { s.nodes p with now := (s.nodes p).now + dt } } []
  | act {p : Party ι} {e : Advertiser.Event} {n : Advertiser} {es : List Effect}
      {ls : List Letter} (he : IsLocal e) (h : Advertiser.Does E I outOfRange (s.nodes p) e n es)
      (hcreated : e = .start → n.node.credentials = some (R.credentials p))
      (hls : Posts d s.now n.node es ls) :
      Does E I outOfRange R d s (.act p e)
        { s with nodes := Function.update s.nodes p n, inFlight := s.inFlight ++ ls } ls
  | deliver {chance : Chance} {p : Party ι} {l : Letter} {n : Advertiser} {es : List Effect}
      {ls : List Letter} (hl : l ∈ s.inFlight)
      (hp : (s.nodes p).node.authAddress = l.message.destination)
      (h : Advertiser.Does E I outOfRange (s.nodes p) (.call (.recv chance l.message.datagram)) n
        es)
      (hls : Posts d s.now n.node es ls) :
      Does E I outOfRange R d s (.deliver chance p l)
        { s with
          nodes := Function.update s.nodes p n
          inFlight := s.inFlight.erase l ++ ls } ls

def Step (E : Env β) (I : Intervals) (outOfRange : ℚ → UInt32) (R : Roster ι) (d : Time)
    (x : Transition (Enrolment ι) (Event ι) (List Letter)) : Prop :=
  Does E I outOfRange R d x.pre x.event x.post x.out

/-- The parties of the roster in secure mode, before any of them was started. -/
structure Initial (R : Roster ι) (s : Enrolment ι) : Prop where
  inFlight : s.inFlight = []
  now : ∀ p, (s.nodes p).now = s.now
  new : ∀ p, Advertiser.New (s.nodes p)
  secure : ∀ p, (s.nodes p).node.securityState = true
  role : ∀ p, (s.nodes p).node.isGroundStation = decide (p = .gs)
  nodeId : ∀ p, (s.nodes p).node.nodeId = R.id p
  authAddress : ∀ p, (s.nodes p).node.authAddress = R.address p
  socket : ∀ p, ∃ j, (s.nodes p).node.authSocketAddresses.toList = [j]
  credentials : ∀ p, (s.nodes p).node.credentials = none

end Enrolment

end SAeroRP
