import SAeroRP.Tdma.Controller

/-! The MAC of a TDMA device. When the controller lets it transmit it looks at the
first packet of its queue and, if the time of the grant is enough for it, sends the
first packet of the queue when the transmission time has passed; then it starts
again with the time that remains. -/

namespace SAeroRP

/-! ### The low MAC -/

/-- A packet between its header and its trailer. -/
structure Frame where
  hdr : WifiMacHeader
  packet : Packet
  deriving DecidableEq

def Frame.getSize (f : Frame) : ℕ :=
  f.hdr.getSize + f.packet.getSize + WifiMacTrailer.getSerializedSize

namespace TdmaMacLow

/-- The frame that goes to the channel. -/
def startTransmission (packet : Packet) (hdr : WifiMacHeader) : Frame := ⟨hdr, packet⟩

def getSize (packet : Packet) (hdr : WifiMacHeader) : ℕ :=
  packet.getSize + hdr.getSize + WifiMacTrailer.getSerializedSize

/-- GetSize counts what StartTransmission adds. -/
theorem getSize_startTransmission (packet : Packet) (hdr : WifiMacHeader) :
    (startTransmission packet hdr).getSize = getSize packet hdr := by
  simp only [startTransmission, Frame.getSize, getSize]
  omega

end TdmaMacLow

/-- The frame the item is sent in. -/
def Item.frame (i : Item) : Frame := TdmaMacLow.startTransmission i.packet i.hdr

namespace TdmaCentralMac

/-- There is one queue. 0 says that it is full. -/
def getQueueState (q : TdmaMacQueue) : UInt32 := if q.getMaxSize = q.getSize then 0 else 1

/-! ### Transmission -/

/-- A call of SendPacketDown that was scheduled, with the item that was looked at. -/
structure SendEvent where
  delay : Time
  remainingTime : Time
  peeked : Item

/-- StartTransmission. A packet that does not fit waits for the next grant. -/
def startTransmission (c : TdmaController) (now : Time) (transmissionTimeUs : ℤ)
    (q : TdmaMacQueue) : Except Fault (TdmaMacQueue × Option SendEvent) :=
  let totalTransmissionSlot := Time.microSeconds transmissionTimeUs
  match q.isEmpty now with
  | (true, q) => .ok (q, none)
  | (false, q) =>
    match q.peek now with
    | (none, _) => .error .nullPointer
    | (some peekPacket, q) => do
      let packetTransmissionTime ← c.calculateTxTime peekPacket.packet
      if packetTransmissionTime < totalTransmissionSlot then
        return (q, some ⟨packetTransmissionTime,
          totalTransmissionSlot - packetTransmissionTime, peekPacket⟩)
      else return (q, none)

/-- SendPacketDown up to the callback that tells the layer above. It goes on with
StartTransmission for the time that remains. -/
def sendPacketDown (now : Time) (q : TdmaMacQueue) : Except Fault (Frame × TdmaMacQueue) :=
  match q.dequeue now with
  | (none, _) => .error .nullPointer
  | (some i, q) => .ok (TdmaMacLow.startTransmission i.packet i.hdr, q)

section
variable {c : TdmaController} {now : Time} {us : ℤ} {q : TdmaMacQueue}

/-- The queue is purged once; what happens depends on its first item. -/
theorem startTransmission_eq (c : TdmaController) (now : Time) (us : ℤ) (q : TdmaMacQueue) :
    startTransmission c now us q =
      match (q.cleanup now).queue with
      | [] => .ok (q.cleanup now, none)
      | i :: _ => c.calculateTxTime i.packet >>= fun t =>
        .ok (q.cleanup now, if t < Time.microSeconds us then
          some ⟨t, Time.microSeconds us - t, i⟩ else none) := by
  unfold startTransmission TdmaMacQueue.isEmpty TdmaMacQueue.peek
  cases h : (q.cleanup now).queue with
  | nil => simp [h]
  | cons i rest =>
    simp only [h, List.isEmpty_cons, TdmaMacQueue.cleanup_cleanup, List.head?_cons]
    cases c.calculateTxTime i.packet with
    | error e => rfl
    | ok t =>
      simp only [ok_bind]
      split_ifs <;> rfl

theorem startTransmission_of_empty (h : q.queue = []) :
    startTransmission c now us q = .ok (q, none) := by
  have hclean : q.cleanup now = q := TdmaMacQueue.cleanup_of_fresh fun i hi => by
    rw [h] at hi
    cases hi
  rw [startTransmission_eq, hclean, h]

/-- What is scheduled takes its time from the grant. -/
theorem startTransmission_some {q' : TdmaMacQueue} {d : SendEvent}
    (h : startTransmission c now us q = .ok (q', some d)) :
    q' = q.cleanup now ∧ (q.cleanup now).queue.head? = some d.peeked ∧
      c.calculateTxTime d.peeked.packet = .ok d.delay ∧ 0 ≤ d.delay ∧
      d.delay < Time.microSeconds us ∧ d.remainingTime = Time.microSeconds us - d.delay := by
  rw [startTransmission_eq] at h
  cases hq : (q.cleanup now).queue with
  | nil =>
    rw [hq] at h
    cases h
  | cons i rest =>
    rw [hq] at h
    obtain ⟨t, ht, h⟩ := bind_eq_ok.mp h
    split_ifs at h with hlt <;> cases h
    exact ⟨rfl, rfl, ht, TdmaController.calculateTxTime_nonneg ht, hlt, rfl⟩

theorem sendPacketDown_nil (h : (q.cleanup now).queue = []) :
    sendPacketDown now q = .error .nullPointer := by
  rw [sendPacketDown, TdmaMacQueue.dequeue_nil h]

theorem sendPacketDown_cons {i : Item} {rest : List Item} (h : (q.cleanup now).queue = i :: rest) :
    sendPacketDown now q = .ok (i.frame, { q.cleanup now with
      queue := rest, size := (q.cleanup now).size - 1 }) := by
  rw [sendPacketDown, TdmaMacQueue.dequeue_cons h]
  rfl

/-- The frame is that of the first item Cleanup leaves. -/
theorem sendPacketDown_ok {frame : Frame} {q' : TdmaMacQueue}
    (h : sendPacketDown now q = .ok (frame, q')) :
    ∃ i rest, (q.cleanup now).queue = i :: rest ∧ frame = i.frame ∧ q'.queue = rest ∧
      q'.maxDelay = q.maxDelay := by
  cases hq : (q.cleanup now).queue with
  | nil =>
    rw [sendPacketDown_nil hq] at h
    cases h
  | cons i rest =>
    rw [sendPacketDown_cons hq] at h
    cases h
    exact ⟨i, rest, rfl, rfl, rfl, rfl⟩

theorem cleanup_eq_nil_of_sendPacketDown {f : Fault} (h : sendPacketDown now q = .error f) :
    (q.cleanup now).queue = [] := by
  cases hq : (q.cleanup now).queue with
  | nil => rfl
  | cons i rest =>
    rw [sendPacketDown_cons hq] at h
    cases h

end

end TdmaCentralMac

end SAeroRP
