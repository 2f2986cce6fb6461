import Mathlib.Data.List.Nodup
import SAeroRP.Library.Run
import SAeroRP.Tdma.NetDevice

/-! The devices of a channel together. The layers above send packets, the MACs hand the
first packet of their queue to the channel, and every copy is received when it has
propagated. When a MAC may transmit is left open here: it may at any time. Nodes may move
between two transmissions. -/

namespace SAeroRP

open Library

/-- The nodes and the addresses of the devices of a channel. -/
structure Link where
  channel : SimpleWirelessChannel
  node : MacPtr → UInt32
  address : MacPtr → Mac48Address

/-- A call of SendFrom, or without a source one of Send. -/
structure Sent where
  mac : MacPtr
  packet : Packet
  source : Option Mac48Address
  dest : Mac48Address
  protocol : UInt16

/-- A frame that was handed to the channel, and where the nodes were then. -/
structure Transmission where
  mac : MacPtr
  time : Time
  geometry : Geometry
  frame : Frame

/-- A pending call of TdmaMacLow::Receive. -/
structure Arrival where
  due : Time
  low : MacPtr
  frame : Frame
  /-- History variable: the transmission it is a copy of. -/
  transmission : ℕ
  deriving DecidableEq

def Copy.arrival (now : Time) (transmission : ℕ) (c : Copy) : Arrival :=
  ⟨now + c.delay, c.low, c.frame, transmission⟩

structure LinkState where
  now : Time
  queues : MacPtr → TdmaMacQueue
  arrivals : List Arrival := []
  /-- History variables: the calls of Send and SendFrom, the transmissions, and the calls
  of Receive with what each forwarded up. -/
  sent : List Sent := []
  transmitted : List Transmission := []
  received : List (Arrival × Option TdmaNetDevice.Upcall) := []

inductive LinkEvent where
  | advance (dt : Time)
  | send (x : Sent)
  | startTransmission (mac : MacPtr) (c : TdmaController) (transmissionTimeUs : ℤ)
  | sendPacketDown (mac : MacPtr) (g : Geometry)
  | setMaxQueueSize (mac : MacPtr) (size : UInt32)
  | setMaxQueueDelay (mac : MacPtr) (delay : Time)
  | receive (a : Arrival)

/-! ### Calls of Send and SendFrom -/

namespace Sent

/-- The source the receivers are told. -/
def sender (L : Link) (x : Sent) : Mac48Address := x.source.getD (L.address x.mac)

def call (L : Link) (now : Time) (x : Sent) (q : TdmaMacQueue) : Bool × TdmaMacQueue :=
  match x.source with
  | none => TdmaNetDevice.send now (L.address x.mac) x.packet x.dest x.protocol q
  | some source =>
    TdmaNetDevice.sendFrom now (L.address x.mac) x.packet source x.dest x.protocol q

/-- The frame the packet is transmitted in. -/
def frame (L : Link) (x : Sent) : Frame :=
  ⟨{ addr1 := x.dest, addr2 := L.address x.mac, addr3 := x.sender L, dsFrom := true,
     dsTo := false }, x.packet.addHeader (LlcSnapHeader.serialize ⟨x.protocol⟩)⟩

/-- What a receiver forwards up. -/
def upcall (L : Link) (x : Sent) : TdmaNetDevice.Upcall := ⟨x.packet, x.protocol, x.sender L⟩

/-- The call is an Enqueue of the frame's packet and header. -/
theorem snd_call (L : Link) (now : Time) (x : Sent) (q : TdmaMacQueue) :
    (x.call L now q).2 = (q.enqueue now (x.frame L).packet (x.frame L).hdr).2 := by
  unfold call frame sender
  cases x.source <;> rfl

/-- The packet is put at the end of the queue, or dropped. -/
theorem queue_call (L : Link) (now : Time) (x : Sent) (q : TdmaMacQueue) :
    ∃ l, l.Sublist [x.frame L] ∧ (x.call L now q).2.queue.map Item.frame =
      (q.cleanup now).queue.map Item.frame ++ l := by
  rw [snd_call]
  cases hq : q.enqueue now (x.frame L).packet (x.frame L).hdr with
  | mk taken q' =>
    obtain ⟨hqueue, -⟩ := TdmaMacQueue.enqueue_queue hq
    rw [hqueue, List.map_append]
    refine ⟨_, ?_, rfl⟩
    split_ifs
    · exact List.Sublist.refl _
    · exact List.nil_sublist _

/-- A device that the frame reaches forwards the packet if it accepts it. -/
theorem receive_frame (L : Link) (x : Sent) (address : Mac48Address) :
    TdmaMacLow.receive address (x.frame L) =
      .ok (if TdmaNetDevice.Accepts address x.dest then some (x.upcall L) else none) :=
  TdmaMacLow.receive_addHeader address _ x.packet x.protocol

end Sent

/-! ### Steps -/

namespace LinkState

/-- No packet has been sent. -/
structure Initial (s : LinkState) : Prop where
  queues : ∀ mac, (s.queues mac).queue = []
  arrivals : s.arrivals = []
  sent : s.sent = []
  transmitted : s.transmitted = []
  received : s.received = []

def setQueue (s : LinkState) (mac : MacPtr) (q : TdmaMacQueue) : LinkState :=
  { s with queues := Function.update s.queues mac q }

@[simp] theorem queues_setQueue_self (s : LinkState) (mac : MacPtr) (q : TdmaMacQueue) :
    (s.setQueue mac q).queues mac = q := Function.update_self ..

theorem queues_setQueue_of_ne (s : LinkState) {mac mac' : MacPtr} (q : TdmaMacQueue)
    (h : mac' ≠ mac) : (s.setQueue mac q).queues mac' = s.queues mac' :=
  Function.update_of_ne h ..

/-- `Does L s e t`: in state `s` the event `e` may happen and leads to `t`. Time does not
pass the time a frame is received at. -/
inductive Does (L : Link) (s : LinkState) : LinkEvent → LinkState → Prop
  | advance {dt : Time} (hdt : 0 ≤ dt) (hdue : ∀ a ∈ s.arrivals, s.now + dt ≤ a.due) :
      Does L s (.advance dt) { s with now := s.now + dt }
  | send (x : Sent) :
      Does L s (.send x)
        { s.setQueue x.mac (x.call L s.now (s.queues x.mac)).2 with sent := s.sent ++ [x] }
  | startTransmission {mac : MacPtr} {c : TdmaController} {us : ℤ} {q : TdmaMacQueue}
      {d : Option TdmaCentralMac.SendEvent}
      (h : TdmaCentralMac.startTransmission c s.now us (s.queues mac) = .ok (q, d)) :
      Does L s (.startTransmission mac c us) (s.setQueue mac q)
  | sendPacketDown {mac : MacPtr} {g : Geometry} {frame : Frame} {q : TdmaMacQueue}
      (h : TdmaCentralMac.sendPacketDown s.now (s.queues mac) = .ok (frame, q)) :
      Does L s (.sendPacketDown mac g)
        { s.setQueue mac q with
          arrivals := s.arrivals ++
            (L.channel.send L.node g frame mac).map (·.arrival s.now s.transmitted.length)
          transmitted := s.transmitted ++ [⟨mac, s.now, g, frame⟩] }
  | setMaxQueueSize (mac : MacPtr) (size : UInt32) :
      Does L s (.setMaxQueueSize mac size) (s.setQueue mac ((s.queues mac).setMaxSize size))
  | setMaxQueueDelay (mac : MacPtr) (delay : Time) :
      Does L s (.setMaxQueueDelay mac delay) (s.setQueue mac ((s.queues mac).setMaxDelay delay))
  | receive {a : Arrival} {up : Option TdmaNetDevice.Upcall} (ha : a ∈ s.arrivals)
      (hdue : a.due = s.now) (h : TdmaMacLow.receive (L.address a.low) a.frame = .ok up) :
      Does L s (.receive a)
        { s with arrivals := s.arrivals.erase a, received := s.received ++ [(a, up)] }

def Step (L : Link) (x : Transition LinkState LinkEvent Unit) : Prop := Does L x.pre x.event x.post

/-! ### Delivery -/

/-- The frames that a MAC was given, and those that it transmitted. -/
def framesSent (L : Link) (s : LinkState) (mac : MacPtr) : List Frame :=
  (s.sent.filter fun x => x.mac = mac).map (·.frame L)

def framesTransmitted (s : LinkState) (mac : MacPtr) : List Frame :=
  (s.transmitted.filter fun t => t.mac = mac).map Transmission.frame

/-- What a device forwarded up of a transmission. -/
def forwarded (s : LinkState) (transmission : ℕ) (low : MacPtr) :
    List TdmaNetDevice.Upcall :=
  (s.received.filter fun r => r.1.transmission = transmission ∧ r.1.low = low).filterMap Prod.snd

end LinkState

/-- The copy of a transmission that a device receives. -/
def Transmission.arrivalAt (L : Link) (t : Transmission) (k : ℕ) (low : MacPtr) : Arrival :=
  ⟨t.time + SimpleWirelessChannel.propagationTime
    (t.geometry.distance (L.node t.mac) (L.node low)), low, t.frame, k⟩

/-- A transmission is for a device if it reaches it and the device accepts it. -/
def Transmission.For (L : Link) (t : Transmission) (x : Sent) (low : MacPtr) : Prop :=
  L.channel.InRange L.node t.geometry t.mac low ∧ TdmaNetDevice.Accepts (L.address low) x.dest

namespace LinkState

/-- Every transmission is of a packet that was sent on its device, each of these is
transmitted at most once, and it reaches the layer above exactly once at the devices it is
for, when it has propagated, and at no other device. -/
structure Delivers (L : Link) (s : LinkState) : Prop where
  transmitted : ∀ mac, (s.framesTransmitted mac).Sublist (s.framesSent L mac)
  exactly : ∀ k t, s.transmitted[k]? = some t → ∀ x ∈ s.sent, x.mac = t.mac → x.frame L = t.frame →
    ∀ low, t.For L x low →
      s.forwarded k low = [x.upcall L] ∨
        s.forwarded k low = [] ∧ t.arrivalAt L k low ∈ s.arrivals ∧
          s.now ≤ (t.arrivalAt L k low).due
  only : ∀ k t, s.transmitted[k]? = some t → ∀ x ∈ s.sent, x.mac = t.mac → x.frame L = t.frame →
    ∀ low, ¬ t.For L x low → s.forwarded k low = []
  /-- What is under way can be received. -/
  receives : ∀ a ∈ s.arrivals, ∃ up, TdmaMacLow.receive (L.address a.low) a.frame = .ok up

end LinkState

end SAeroRP
