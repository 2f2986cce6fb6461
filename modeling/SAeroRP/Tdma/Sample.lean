import SAeroRP.Tdma.Channel
import SAeroRP.Tdma.Helper
import SAeroRP.Tdma.Service

/-! The slot table the helper's documentation gives, with five slots for four nodes, a
packet in a queue, and nodes that are equally far from each other. -/

namespace SAeroRP.Sample

def slotRows : List (List UInt32) :=
  [[0, 1, 1, 0, 0, 0],
   [1, 0, 0, 1, 0, 0],
   [2, 0, 0, 0, 1, 0],
   [3, 0, 0, 0, 0, 1]]

def slotTable : TdmaHelper where
  slotAllotmentArray i j := (slotRows.getD i []).getD j 0
  numRows := 4
  numCols := 6

theorem slotTable_complete : slotTable.Complete := by
  have hentries : ∀ i < 4, ∀ j < 6, 1 ≤ j → slotTable.slotAllotmentArray i j = 0 ∨
      slotTable.slotAllotmentArray i j = 1 := by decide
  have howner : ∀ j < 6, 1 ≤ j → ∃ i < 4, slotTable.slotAllotmentArray i j = 1 ∧
      ∀ k < 4, slotTable.slotAllotmentArray k j = 1 → k = i := by decide
  refine ⟨by decide, by decide, fun i hi j hle hj => hentries i hi j hj hle, fun j hle hj => ?_⟩
  obtain ⟨i, hi, hone, hunique⟩ := howner j hj hle
  exact ⟨i, ⟨hi, hone⟩, fun k hk => hunique k hk.1 hk.2⟩

/-- A controller with the default times. -/
def controller : TdmaController where
  totalSlotsAllowed := 0

def macAddress (k : UInt8) : Mac48Address := ⟨[0, 0, 0, 0, 0, k], rfl⟩

/-- From node `k` to its neighbour. -/
def macHeader (k : UInt8) : WifiMacHeader :=
  ⟨macAddress (k + 1), macAddress k, macAddress k, true, false⟩

/-- All nodes are this far from each other. -/
def apart (d : ℕ) : Geometry := ⟨fun _ _ => d, fun _ _ => Nat.cast_nonneg d⟩

/-- A packet of the given size that came at the start. -/
def item (size : ℕ) : Item := ⟨⟨List.replicate size 0, 1, false⟩, macHeader 0, 0⟩

/-- The queue that holds it. -/
def queue (size : ℕ) : TdmaMacQueue := { queue := [item size], size := 1 }

theorem getSize_item (size : ℕ) : (item size).packet.getSize = size := List.length_replicate

theorem cleanup_queue (now : Time) (size : ℕ) (h : now < Time.seconds 10) :
    (queue size).cleanup now = queue size := by
  refine TdmaMacQueue.cleanup_of_fresh fun i hi => ?_
  rw [List.mem_singleton.mp hi]
  exact h.trans_eq (zero_add _).symm

/-! ### Queues of several packets -/

/-- A queue of these items. -/
def queueOf (items : List Item) : TdmaMacQueue :=
  { queue := items, size := UInt32.ofNat items.length }

section
open TdmaCentralMac

variable {now : Time} {items : List Item} {i : Item} {c : TdmaController} {t : Time}

theorem cleanup_queueOf (h : ∀ i ∈ items, now < i.tstamp + Time.seconds 10) :
    (queueOf items).cleanup now = queueOf items := TdmaMacQueue.cleanup_of_fresh h

/-- The first packet is sent if there is time for it. -/
theorem startTransmission_queueOf (h : ∀ j ∈ i :: items, now < j.tstamp + Time.seconds 10)
    (ht : c.calculateTxTime i.packet = .ok t) (us : ℤ) :
    startTransmission c now us (queueOf (i :: items)) =
      .ok (queueOf (i :: items), if t < Time.microSeconds us then
        some ⟨t, Time.microSeconds us - t, i⟩ else none) := by
  have hhead : (queueOf (i :: items)).queue = i :: items := rfl
  rw [startTransmission_eq, cleanup_queueOf h, hhead]
  simp only [ht, ok_bind]

theorem sendPacketDown_queueOf (h : ∀ j ∈ i :: items, now < j.tstamp + Time.seconds 10) :
    sendPacketDown now (queueOf (i :: items)) = .ok (i.frame, queueOf items) := by
  have hhead : ((queueOf (i :: items)).cleanup now).queue = i :: items := by
    rw [cleanup_queueOf h]
    rfl
  have hsize : UInt32.ofNat (items.length + 1) - 1 = UInt32.ofNat items.length := by
    rw [UInt32.ofNat_add]
    exact UInt32.add_sub_cancel _ _
  rw [sendPacketDown_cons hhead, cleanup_queueOf h]
  simp only [queueOf, List.length_cons, hsize]

end

section
open TdmaCentralMac

variable {c : TdmaController} (hc : c.bps = .ofBps 11000000)
include hc

/-- The time the packet is taken to need. -/
theorem calculateTxTime_item {size : ℕ} (h : size < 1500) :
    c.calculateTxTime (item size).packet = .ok (size * 8 * 1000000000 / 11000000 : ℕ) := by
  rw [TdmaController.calculateTxTime, getSize_item, if_pos h, hc]
  rfl

theorem startTransmission_item (now : Time) (size t : ℕ) (hsize : size < 1500)
    (ht : size * 8 * 1000000000 / 11000000 = t) (hslot : t < Time.microSeconds 1100)
    (hnow : now < Time.seconds 10) :
    startTransmission c now 1100 (queue size) =
      .ok (queue size, some ⟨t, Time.microSeconds 1100 - t, item size⟩) := by
  rw [startTransmission_eq, cleanup_queue now size hnow]
  simp only [queue, calculateTxTime_item hc hsize, ht, ok_bind]
  rw [if_pos hslot]

end

open TdmaCentralMac in
/-- The packet is sent before it expires. -/
theorem serves_item (now : Time) (size t : ℕ) (hsize : size < 1500)
    (ht : size * 8 * 1000000000 / 11000000 = t) (hslot : t < Time.microSeconds 1100)
    (hlater : now + t < Time.seconds 10) :
    Serves controller now (queue size) 1100 []
      [⟨now + t, item size, some (item size), some (item size).frame⟩] := by
  have hnonneg := Int.natCast_nonneg t
  have hstart := startTransmission_item (c := controller) rfl now size t hsize ht hslot
    (by linarith)
  have hfirst : ((queue size).cleanup (now + t)).queue = [item size] := by
    rw [cleanup_queue _ size hlater]
    rfl
  have hdequeue := TdmaMacQueue.dequeue_cons hfirst
  have hserves := Serves.send hstart (.nil _ (by simp)) (sendPacketDown_cons hfirst) (.nil _ le_rfl)
    (.stop (startTransmission_of_empty rfl))
  rw [hdequeue] at hserves
  exact hserves

/-- The packet does not expire in a first slot. -/
theorem fresh_in_slot (size : ℕ) : ∀ i ∈ ((queue size).cleanup 0).queue ++ [],
    0 + Time.microSeconds (1100 : ℕ) ≤ i.tstamp + (queue size).maxDelay := by
  rw [cleanup_queue 0 size (by decide), List.append_nil]
  intro i hi
  rw [List.mem_singleton.mp hi]
  show 0 + Time.microSeconds (1100 : ℕ) ≤ 0 + Time.seconds 10
  decide

end SAeroRP.Sample
