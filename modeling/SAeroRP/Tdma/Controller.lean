import Mathlib.Data.Finset.Image
import SAeroRP.Library.Stretch
import SAeroRP.Tdma.MacQueue

/-! The controller of the TDMA devices. It knows the MAC of every slot and lets the
MACs transmit in the order of their slots; slots that follow each other and have
the same MAC are merged into one session. Times are counted in microseconds. -/

namespace SAeroRP

open Library

/-- The MACs are named. -/
abbrev MacPtr := ℕ

structure TdmaController where
  slotPtrs : Std.ExtTreeMap ℕ MacPtr := ∅
  bps : DataRate := .ofBps 11000000
  slotTime : ℕ := 1100
  gaurdTime : ℕ := 100
  tdmaInterFrameTime : ℕ := 0
  totalSlotsAllowed : ℕ

/-- An event that begins a session. -/
inductive SessionEvent where
  | startTdmaSessions
  | scheduleTdmaSession (slotNum : ℕ)
  deriving DecidableEq

/-- The slot an event schedules a session for. -/
def SessionEvent.slotNum : SessionEvent → ℕ
  | startTdmaSessions => 0
  | scheduleTdmaSession slotNum => slotNum

/-- What ScheduleTdmaSession does: the MAC that transmits and for how long, and the
event that follows after a delay. -/
structure Session where
  slotNum : ℕ
  mac : MacPtr
  numOfSlotsAllotted : ℕ
  transmissionSlot : Time
  delay : Time
  next : SessionEvent

namespace TdmaController

def getSlotTime (c : TdmaController) : Time := Time.microSeconds c.slotTime
def getGaurdTime (c : TdmaController) : Time := Time.microSeconds c.gaurdTime
def getInterFrameTimeInterval (c : TdmaController) : Time := Time.microSeconds c.tdmaInterFrameTime

theorem getGaurdTime_nonneg (c : TdmaController) : 0 ≤ c.getGaurdTime :=
  Time.microSeconds_nonneg (Int.natCast_nonneg _)

theorem getInterFrameTimeInterval_nonneg (c : TdmaController) : 0 ≤ c.getInterFrameTimeInterval :=
  Time.microSeconds_nonneg (Int.natCast_nonneg _)

/-- A slot that has a MAC keeps it. -/
def addTdmaSlot (slotPos : ℕ) (macPtr : MacPtr) (c : TdmaController) : TdmaController :=
  { c with slotPtrs := c.slotPtrs.insertIfNew slotPos macPtr }

def setTotalSlotsAllowed (slotsAllowed : ℕ) (c : TdmaController) : TdmaController :=
  { c with totalSlotsAllowed := slotsAllowed, slotPtrs := ∅ }

/-- The loop that merges the slots after `slotNum` that have the same MAC. There are
no more of them than slots in the map. -/
def numOfSlotsAllotted (c : TdmaController) (slotNum : ℕ) (mac : MacPtr) : ℕ :=
  countWhile (fun n => c.slotPtrs[slotNum + n]? = some mac) c.slotPtrs.size 1

/-- For a slot without a MAC the end iterator is dereferenced. -/
def scheduleTdmaSession (slotNum : ℕ) (c : TdmaController) : Except Fault Session :=
  match c.slotPtrs[slotNum]? with
  | none => .error .endIterator
  | some mac =>
    let n := c.numOfSlotsAllotted slotNum mac
    let transmissionSlot := Time.microSeconds (c.getSlotTime.getMicroSeconds * n)
    let totalTransmissionTimeUs := c.getGaurdTime + transmissionSlot
    .ok <|
      if slotNum + n = c.totalSlotsAllowed then
        ⟨slotNum, mac, n, transmissionSlot,
          totalTransmissionTimeUs + c.getInterFrameTimeInterval, .startTdmaSessions⟩
      else
        ⟨slotNum, mac, n, transmissionSlot, totalTransmissionTimeUs,
          .scheduleTdmaSession (slotNum + n)⟩

/-- The time a packet needs. Packets of 1500 bytes and more fail an assertion. -/
def calculateTxTime (packet : Packet) (c : TdmaController) : Except Fault Time :=
  if packet.getSize < 1500 then .ok (c.bps.calculateTxTime packet.getSize) else .error .assertion

theorem calculateTxTime_nonneg {c : TdmaController} {packet : Packet} {t : Time}
    (h : c.calculateTxTime packet = .ok t) : 0 ≤ t := by
  unfold calculateTxTime at h
  split_ifs at h
  cases h
  exact Int.natCast_nonneg _

/-! ### Sessions -/

section
variable {c : TdmaController} {slotNum : ℕ} {mac : MacPtr} {s : Session}

/-- The loop finds the maximal stretch of slots with the MAC. -/
theorem isStretch_numOfSlotsAllotted (h : c.slotPtrs[slotNum]? = some mac) :
    IsStretch (fun n => c.slotPtrs[n]?) slotNum (c.numOfSlotsAllotted slotNum mac) := by
  refine ⟨le_countWhile _ 1, fun m hm hlt => ?_, ?_⟩
  · rcases hm.eq_or_lt with rfl | hm
    · rfl
    · obtain ⟨n, rfl⟩ := Nat.exists_eq_add_of_lt hm
      have hcount : 1 + n < c.numOfSlotsAllotted slotNum mac := by omega
      have hn := of_lt_countWhile _ 1 (1 + n) (Nat.le_add_right 1 n) hcount
      rw [show slotNum + n + 1 = slotNum + (1 + n) by omega]
      exact hn.trans h.symm
  · rw [h]
    -- a slot with the MAC is a key of the map
    refine not_countWhile (p := fun n => c.slotPtrs[slotNum + n]? = some mac)
      (s := c.slotPtrs.keys.toFinset.image (· - slotNum)) (fun m hm => ?_) ?_ 1
    · refine Finset.mem_image.mpr ⟨slotNum + m, ?_, by omega⟩
      rw [List.mem_toFinset, Std.ExtTreeMap.mem_keys, Std.ExtTreeMap.mem_iff_isSome_getElem?, hm]
      rfl
    · refine Finset.card_image_le.trans ((List.toFinset_card_le _).trans_eq ?_)
      exact Std.ExtTreeMap.length_keys

/-- A session is for a maximal stretch of slots; what follows it is the next frame
after the last slot, and the slot after the stretch otherwise. -/
theorem scheduleTdmaSession_ok (h : c.scheduleTdmaSession slotNum = .ok s) :
    s.slotNum = slotNum ∧ c.slotPtrs[slotNum]? = some s.mac ∧
      IsStretch (fun n => c.slotPtrs[n]?) slotNum s.numOfSlotsAllotted ∧
      s.transmissionSlot = Time.microSeconds (c.slotTime * s.numOfSlotsAllotted) ∧
      (slotNum + s.numOfSlotsAllotted = c.totalSlotsAllowed ∧ s.next = .startTdmaSessions ∧
          s.delay = c.getGaurdTime + s.transmissionSlot + c.getInterFrameTimeInterval ∨
        slotNum + s.numOfSlotsAllotted ≠ c.totalSlotsAllowed ∧
          s.next = .scheduleTdmaSession (slotNum + s.numOfSlotsAllotted) ∧
          s.delay = c.getGaurdTime + s.transmissionSlot) := by
  unfold scheduleTdmaSession at h
  rw [getSlotTime, Time.getMicroSeconds_microSeconds] at h
  split at h
  · cases h
  · rename_i mac hmac
    have hstretch := isStretch_numOfSlotsAllotted hmac
    simp only at h
    split_ifs at h with hlast
    · cases h
      exact ⟨rfl, hmac, hstretch, rfl, .inl ⟨hlast, rfl, rfl⟩⟩
    · cases h
      exact ⟨rfl, hmac, hstretch, rfl, .inr ⟨hlast, rfl, rfl⟩⟩

theorem exists_session_iff :
    (∃ s, c.scheduleTdmaSession slotNum = .ok s) ↔ c.slotPtrs[slotNum]?.isSome := by
  unfold scheduleTdmaSession
  cases c.slotPtrs[slotNum]? <;> simp

/-- The next session begins after the transmission slot and the guard time. -/
theorem le_delay (h : c.scheduleTdmaSession slotNum = .ok s) :
    s.transmissionSlot + c.getGaurdTime ≤ s.delay := by
  have hinter := c.getInterFrameTimeInterval_nonneg
  obtain ⟨-, -, -, -, ⟨-, -, hdelay⟩ | ⟨-, -, hdelay⟩⟩ := scheduleTdmaSession_ok h
  · rw [hdelay]
    linarith
  · rw [hdelay]
    linarith

theorem transmissionSlot_nonneg (h : c.scheduleTdmaSession slotNum = .ok s) :
    0 ≤ s.transmissionSlot := by
  obtain ⟨-, -, -, hslot, -⟩ := scheduleTdmaSession_ok h
  rw [hslot]
  exact Time.microSeconds_nonneg (Int.mul_nonneg (Int.natCast_nonneg _) (Int.natCast_nonneg _))

/-- The MAC is told the transmission slot in whole microseconds, which is all of it. -/
theorem microSeconds_transmissionSlot (h : c.scheduleTdmaSession slotNum = .ok s) :
    Time.microSeconds s.transmissionSlot.getMicroSeconds = s.transmissionSlot := by
  obtain ⟨-, -, -, hslot, -⟩ := scheduleTdmaSession_ok h
  rw [hslot, Time.getMicroSeconds_microSeconds]

/-- The slots that have a MAC are those from 0 to the number of slots, and there is
one. -/
structure Filled (c : TdmaController) : Prop where
  pos : 0 < c.totalSlotsAllowed
  isSome_iff : ∀ n, c.slotPtrs[n]?.isSome ↔ n < c.totalSlotsAllowed

/-- A session ends at the last slot or before it. -/
theorem Filled.add_le (hc : c.Filled) (h : c.scheduleTdmaSession slotNum = .ok s) :
    slotNum + s.numOfSlotsAllotted ≤ c.totalSlotsAllowed := by
  obtain ⟨-, hmac, hstretch, -⟩ := scheduleTdmaSession_ok h
  have hlt : slotNum < c.totalSlotsAllowed := (hc.isSome_iff slotNum).mp (by rw [hmac]; rfl)
  refine hstretch.add_le hlt fun m hm heq => ?_
  have hsome := (hc.isSome_iff m).mpr hm
  rw [heq, hc.isSome_iff] at hsome
  exact lt_irrefl _ hsome

/-- The next session finds its slot. -/
theorem Filled.next (hc : c.Filled) (h : c.scheduleTdmaSession slotNum = .ok s) :
    s.next.slotNum < c.totalSlotsAllowed := by
  have hle := hc.add_le h
  obtain ⟨-, -, -, -, ⟨-, hnext, -⟩ | ⟨hne, hnext, -⟩⟩ := scheduleTdmaSession_ok h
  · rw [hnext]
    exact hc.pos
  · rw [hnext]
    exact lt_of_le_of_ne hle hne

end

end TdmaController

end SAeroRP
