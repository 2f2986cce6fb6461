import SAeroRP.Tdma.Channel

/-! The net devices over the MACs. A packet that is sent gets an LLC header and waits in
the queue of its MAC under a header with three addresses; a frame that arrives comes up
through the MAC to the device, which takes the LLC header off and forwards the packet if
it is for it. -/

namespace SAeroRP

open Library

/-! ### Link addresses and the LLC header -/

namespace Mac48Address

def isBroadcast (a : Mac48Address) : Bool := a = List.Vector.replicate 6 0xff

/-- The low bit of the first byte. -/
def isGroup (a : Mac48Address) : Bool := a.head &&& 0x01 = 0x01

end Mac48Address

/-- The header in front of a packet; all of it but the protocol number is constant. -/
structure LlcSnapHeader where
  type : UInt16
  deriving DecidableEq

namespace LlcSnapHeader

def serialize (llc : LlcSnapHeader) : Bytes :=
  [0xaa, 0xaa, 0x03, 0, 0, 0] ++ (leBytes 2 llc.type.toNat).reverse

def deserialize : Reader LlcSnapHeader := do
  let _ ← Reader.take 6
  let bs ← Reader.take 2
  return ⟨UInt16.ofNat (leValue bs.reverse)⟩

theorem reads_deserialize (llc : LlcSnapHeader) :
    Reader.Reads deserialize llc.serialize llc := by
  have htype : llc.type.toNat < 256 ^ 2 := llc.type.toNat_lt
  have hsnap : Reader.Reads (Reader.take 6) [0xaa, 0xaa, 0x03, 0, 0, 0]
      [0xaa, 0xaa, 0x03, 0, 0, 0] := Reader.reads_take rfl
  have hword : Reader.Reads (Reader.take 2) (leBytes 2 llc.type.toNat).reverse
      (leBytes 2 llc.type.toNat).reverse := Reader.reads_take (by simp)
  have hread := hsnap.bind (f := fun _ => Reader.take 2 >>= fun bs =>
    pure (⟨UInt16.ofNat (leValue bs.reverse)⟩ : LlcSnapHeader)) (hword.bind (Reader.reads_pure _))
  rw [List.append_nil, List.reverse_reverse, leValue_leBytes_of_lt htype,
    UInt16.ofNat_toNat] at hread
  exact hread

/-- LLC_SNAP_HEADER_LENGTH of the simulator. -/
def length : ℕ := 8

theorem length_serialize (llc : LlcSnapHeader) : llc.serialize.length = length := by
  rw [serialize, List.length_append, List.length_reverse, length_leBytes]
  rfl

end LlcSnapHeader

/-! ### The MTU -/

/-- What a device keeps besides its MAC. -/
structure TdmaNetDevice where
  mtu : UInt16 := 2296

namespace TdmaNetDevice

/-- MAX_MSDU_SIZE. -/
def maxMsduSize : UInt16 := 2304

/-- The result says whether the MTU was taken. -/
def setMtu (mtu : UInt16) (d : TdmaNetDevice) : Bool × TdmaNetDevice :=
  if mtu.toNat > maxMsduSize.toNat - LlcSnapHeader.length then (false, d) else (true, { d with mtu })

def getMtu (d : TdmaNetDevice) : UInt16 := d.mtu

end TdmaNetDevice

/-! ### Sending -/

namespace TdmaCentralMac

/-- Enqueue with the MAC's own address as the source. -/
def enqueue (now : Time) (address : Mac48Address) (packet : Packet) (dest : Mac48Address)
    (q : TdmaMacQueue) : Bool × TdmaMacQueue :=
  q.enqueue now packet
    { addr1 := dest, addr2 := address, addr3 := address, dsFrom := true, dsTo := false }

/-- Enqueue with a source. -/
def enqueueFrom (now : Time) (address : Mac48Address) (packet : Packet) (dest src : Mac48Address)
    (q : TdmaMacQueue) : Bool × TdmaMacQueue :=
  q.enqueue now packet
    { addr1 := dest, addr2 := address, addr3 := src, dsFrom := true, dsTo := false }

end TdmaCentralMac

namespace TdmaNetDevice

/-- Send returns true whether the queue takes the packet or not. -/
def send (now : Time) (address : Mac48Address) (packet : Packet) (dest : Mac48Address)
    (protocolNumber : UInt16) (q : TdmaMacQueue) : Bool × TdmaMacQueue :=
  let llc : LlcSnapHeader := ⟨protocolNumber⟩
  (true, (TdmaCentralMac.enqueue now address (packet.addHeader llc.serialize) dest q).2)

def sendFrom (now : Time) (address : Mac48Address) (packet : Packet) (source dest : Mac48Address)
    (protocolNumber : UInt16) (q : TdmaMacQueue) : Bool × TdmaMacQueue :=
  let llc : LlcSnapHeader := ⟨protocolNumber⟩
  (true, (TdmaCentralMac.enqueueFrom now address (packet.addHeader llc.serialize) dest source q).2)

/-! ### Receiving -/

/-- NetDevice::PacketType. -/
inductive PacketType where
  | host
  | broadcast
  | multicast
  | otherhost
  deriving DecidableEq

/-- What m_forwardUp is called with. -/
structure Upcall where
  packet : Packet
  protocol : UInt16
  source : Mac48Address
  deriving DecidableEq

def packetType (address dest : Mac48Address) : PacketType :=
  if dest.isBroadcast then .broadcast
  else if dest.isGroup then .multicast
  else if dest = address then .host
  else .otherhost

/-- ForwardUp of a device whose MAC has the address. -/
def forwardUp (address : Mac48Address) (packet : Packet) (src dest : Mac48Address) :
    Except Fault (Option Upcall) := do
  let (llc, packet) ← packet.removeHeader LlcSnapHeader.deserialize
  return if packetType address dest ≠ .otherhost then some ⟨packet, llc.type, src⟩ else none

end TdmaNetDevice

def TdmaCentralMac.receive (address : Mac48Address) (packet : Packet) (hdr : WifiMacHeader) :
    Except Fault (Option TdmaNetDevice.Upcall) :=
  TdmaNetDevice.forwardUp address packet hdr.addr3 hdr.addr1

/-- Receive. The devices send data frames only; header and trailer are taken off. -/
def TdmaMacLow.receive (address : Mac48Address) (frame : Frame) :
    Except Fault (Option TdmaNetDevice.Upcall) :=
  TdmaCentralMac.receive address frame.packet frame.hdr

/-- The packet is for the device: it goes to everybody, to a group or to its address. -/
def TdmaNetDevice.Accepts (address dest : Mac48Address) : Prop :=
  dest.isBroadcast ∨ dest.isGroup ∨ dest = address

instance (address dest : Mac48Address) : Decidable (TdmaNetDevice.Accepts address dest) :=
  inferInstanceAs (Decidable (_ ∨ _ ∨ _))

theorem TdmaNetDevice.packetType_ne_otherhost_iff {address dest : Mac48Address} :
    packetType address dest ≠ .otherhost ↔ Accepts address dest := by
  unfold packetType Accepts
  split_ifs <;> simp_all

/-- What comes up at a device is the packet that was sent, with its protocol number and
the third address of the frame. -/
theorem TdmaMacLow.receive_addHeader (address : Mac48Address) (hdr : WifiMacHeader)
    (packet : Packet) (protocol : UInt16) :
    receive address ⟨hdr, packet.addHeader (LlcSnapHeader.serialize ⟨protocol⟩)⟩ =
      .ok (if TdmaNetDevice.Accepts address hdr.addr1 then some ⟨packet, protocol, hdr.addr3⟩
        else none) := by
  rw [receive, TdmaCentralMac.receive, TdmaNetDevice.forwardUp,
    Packet.removeHeader_addHeader (LlcSnapHeader.reads_deserialize _)]
  simp only [TdmaNetDevice.packetType_ne_otherhost_iff, ok_bind]
  rfl

end SAeroRP
