import Mathlib.Algebra.Order.Ring.Int
import Mathlib.Tactic.Linarith
import SAeroRP.Ns3.Wifi

/-! The queue of a TDMA device. Packets leave from the front; every call first drops
what has been in the queue for the maximal delay. -/

namespace SAeroRP

/-- TdmaMacQueue::Item. -/
structure Item where
  packet : Packet
  hdr : WifiMacHeader
  tstamp : Time
  deriving DecidableEq

structure TdmaMacQueue where
  queue : List Item := []
  size : UInt32 := 0
  maxSize : UInt32 := 400
  maxDelay : Time := Time.seconds 10
  count : UInt32 := 0
  /-- The packets the drop callback was called with. -/
  dropped : List Packet := []

namespace TdmaMacQueue

/-- The test Cleanup keeps an item by. -/
def Fresh (now : Time) (q : TdmaMacQueue) (i : Item) : Prop := now < i.tstamp + q.maxDelay

instance (now : Time) (q : TdmaMacQueue) (i : Item) : Decidable (q.Fresh now i) :=
  inferInstanceAs (Decidable (_ < _))

def cleanup (now : Time) (q : TdmaMacQueue) : TdmaMacQueue :=
  let expired := q.queue.filter fun i => ¬ q.Fresh now i
  { q with
    queue := q.queue.filter fun i => q.Fresh now i
    size := q.size - UInt32.ofNat expired.length
    count := q.count + UInt32.ofNat expired.length
    dropped := q.dropped ++ expired.map Item.packet }

/-- The result says whether the packet was taken. -/
def enqueue (now : Time) (packet : Packet) (hdr : WifiMacHeader) (q : TdmaMacQueue) :
    Bool × TdmaMacQueue :=
  let q := q.cleanup now
  if q.size = q.maxSize then (false, q)
  else (true, { q with queue := q.queue ++ [⟨packet, hdr, now⟩], size := q.size + 1 })

/-- The item whose packet and header Dequeue returns; `none` is the null pointer. -/
def dequeue (now : Time) (q : TdmaMacQueue) : Option Item × TdmaMacQueue :=
  let q := q.cleanup now
  match q.queue with
  | [] => (none, q)
  | i :: rest => (some i, { q with queue := rest, size := q.size - 1 })

def peek (now : Time) (q : TdmaMacQueue) : Option Item × TdmaMacQueue :=
  let q := q.cleanup now
  (q.queue.head?, q)

def isEmpty (now : Time) (q : TdmaMacQueue) : Bool × TdmaMacQueue :=
  let q := q.cleanup now
  (q.queue.isEmpty, q)

/-- What Cleanup drops. -/
def expired (now : Time) (q : TdmaMacQueue) : List Item := q.queue.filter fun i => ¬ q.Fresh now i

/-- The search compares the addresses of packets, which are not part of a packet here:
`found` is the position at which it stops, if it finds the packet. -/
def remove (found : Option ℕ) (q : TdmaMacQueue) : Bool × TdmaMacQueue :=
  match found with
  | none => (false, q)
  | some k =>
    if k < q.queue.length then (true, { q with queue := q.queue.eraseIdx k, size := q.size - 1 })
    else (false, q)

/-- No drop callback is called. -/
def flush (q : TdmaMacQueue) : TdmaMacQueue := { q with queue := [], size := 0 }

def getSize (q : TdmaMacQueue) : UInt32 := q.size
def getMaxSize (q : TdmaMacQueue) : UInt32 := q.maxSize

def setMaxSize (maxSize : UInt32) (q : TdmaMacQueue) : TdmaMacQueue := { q with maxSize }

def setMaxDelay (delay : Time) (q : TdmaMacQueue) : TdmaMacQueue := { q with maxDelay := delay }

section
variable {now now' : Time} {q : TdmaMacQueue} {i : Item}

@[simp] theorem maxDelay_cleanup : (q.cleanup now).maxDelay = q.maxDelay := rfl

theorem mem_cleanup : i ∈ (q.cleanup now).queue ↔ i ∈ q.queue ∧ q.Fresh now i := by
  simp [cleanup]

theorem queue_cleanup (now : Time) (q : TdmaMacQueue) :
    (q.cleanup now).queue = q.queue.filter fun i => q.Fresh now i := rfl

/-- Cleanup splits the queue into what it drops and what it keeps. -/
theorem perm_cleanup (now : Time) (q : TdmaMacQueue) :
    q.queue.Perm (q.expired now ++ (q.cleanup now).queue) := by
  have hperm := List.filter_append_perm (fun i => decide (q.Fresh now i)) q.queue
  refine (List.perm_append_comm.trans ?_).symm
  simpa [expired, queue_cleanup] using hperm

theorem sublist_cleanup (now : Time) (q : TdmaMacQueue) :
    (q.cleanup now).queue.Sublist q.queue := List.filter_sublist

/-- The count of the items is right. -/
def Counted (q : TdmaMacQueue) : Prop := q.size.toNat = q.queue.length

/-- Cleanup takes no more off the count than there is. -/
theorem Counted.length_expired_le (h : q.Counted) (now : Time) :
    (q.expired now).length ≤ q.size.toNat := by
  rw [h]
  exact List.length_filter_le _ _

theorem Counted.cleanup (h : q.Counted) (now : Time) : (q.cleanup now).Counted := by
  have hlen := (q.perm_cleanup now).length_eq
  rw [List.length_append, ← h] at hlen
  have hlt : q.size.toNat < UInt32.size := q.size.toNat_lt
  have hofNat : (UInt32.ofNat (q.expired now).length).toNat = (q.expired now).length :=
    UInt32.toNat_ofNat_of_lt' (by omega)
  have hle : UInt32.ofNat (q.expired now).length ≤ q.size := by
    rw [UInt32.le_iff_toNat_le, hofNat]
    omega
  have hsize : (q.cleanup now).size = q.size - UInt32.ofNat (q.expired now).length := rfl
  rw [Counted, hsize, UInt32.toNat_sub_of_le _ _ hle, hofNat]
  omega

/-- Taking one item out and one off the count. -/
theorem Counted.sub_one (h : q.Counted) {rest : List Item}
    (hrest : q.queue.length = rest.length + 1) :
    ({ q with queue := rest, size := q.size - 1 } : TdmaMacQueue).Counted := by
  have hle : 1 ≤ q.size := by
    rw [UInt32.le_iff_toNat_le, h, hrest]
    simp
  rw [Counted, UInt32.toNat_sub_of_le _ _ hle, h, hrest]
  simp

/-- Adding one item counts right unless the count is at its last value. -/
theorem Counted.add_one_iff (h : q.Counted) (i : Item) :
    ({ q with queue := q.queue ++ [i], size := q.size + 1 } : TdmaMacQueue).Counted ↔
      q.queue.length ≠ 4294967295 := by
  have hlt := q.size.toNat_lt
  rw [Counted, UInt32.toNat_add, h, List.length_append, UInt32.toNat_one, List.length_singleton]
  rw [h] at hlt
  omega

/-- With nothing expired, nothing is dropped. -/
theorem cleanup_of_fresh (h : ∀ i ∈ q.queue, q.Fresh now i) : q.cleanup now = q := by
  have hkeep : (q.queue.filter fun i => q.Fresh now i) = q.queue := by simpa using h
  have hdrop : (q.queue.filter fun i => ¬ q.Fresh now i) = [] := by simpa using h
  simp only [cleanup, hkeep, hdrop]
  simp

@[simp] theorem cleanup_cleanup : (q.cleanup now).cleanup now = q.cleanup now :=
  cleanup_of_fresh fun _ hi => (mem_cleanup.mp hi).2

/-- An item that is fresh later is fresh now. -/
theorem Fresh.mono (h : q.Fresh now' i) (hle : now ≤ now') : q.Fresh now i := hle.trans_lt h

theorem fresh_congr {q' : TdmaMacQueue} (h : q'.maxDelay = q.maxDelay) :
    q'.Fresh now i ↔ q.Fresh now i := by
  simp only [Fresh, h]

/-- The first item stays the first until it expires. -/
theorem head?_cleanup (hhead : q.queue.head? = some i) (hfresh : q.Fresh now i) :
    (q.cleanup now).queue.head? = some i := by
  cases hq : q.queue with
  | nil =>
    rw [hq] at hhead
    cases hhead
  | cons j rest =>
    rw [hq] at hhead
    cases hhead
    simp [cleanup, hq, hfresh]

section
variable {packet : Packet} {hdr : WifiMacHeader} {q' : TdmaMacQueue}

/-- Enqueue adds the item to what Cleanup leaves, or adds nothing. -/
theorem enqueue_queue {taken : Bool} (h : q.enqueue now packet hdr = (taken, q')) :
    q'.queue = (q.cleanup now).queue ++ (if taken then [⟨packet, hdr, now⟩] else []) ∧
      q'.maxDelay = q.maxDelay := by
  unfold enqueue at h
  simp only at h
  split_ifs at h <;> cases h
  · simp
  · simp

end

theorem dequeue_fst : (q.dequeue now).1 = (q.cleanup now).queue.head? := by
  unfold dequeue
  cases h : (q.cleanup now).queue <;> simp [h]

theorem dequeue_nil (h : (q.cleanup now).queue = []) :
    q.dequeue now = (none, q.cleanup now) := by
  simp only [dequeue, h]

theorem dequeue_cons {rest : List Item} (h : (q.cleanup now).queue = i :: rest) :
    q.dequeue now = (some i, { q.cleanup now with
      queue := rest, size := (q.cleanup now).size - 1 }) := by
  simp only [dequeue, h]

end

end TdmaMacQueue

end SAeroRP
