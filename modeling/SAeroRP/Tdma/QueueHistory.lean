import SAeroRP.Library.Ledger
import SAeroRP.Library.Run
import SAeroRP.Tdma.MacQueue

/-! The queue of a TDMA device with its history: calls come one after the other at
times that do not go back, and the books keep what was accepted and how it left. -/

namespace SAeroRP

open Library

namespace TdmaMacQueue

inductive Call where
  | enqueue (packet : Packet) (hdr : WifiMacHeader)
  | dequeue
  | peek
  | isEmpty
  | remove (found : Option ℕ)
  | flush
  | setMaxSize (maxSize : UInt32)
  | setMaxDelay (delay : Time)

/-- What a call returns. The item stands for a packet and its header. -/
inductive Answer where
  | flag (b : Bool)
  | item (i : Option Item)
  | nothing

/-- How a packet leaves the queue. -/
inductive Departure where
  | dequeued
  | removed
  | flushed
  | expired
  deriving DecidableEq

structure History where
  now : Time
  queue : TdmaMacQueue
  /-- History variable: the items that were accepted and those that left. -/
  ledger : Ledger Item Departure := {}

namespace History

/-- Nothing has been called. -/
structure Initial (s : History) : Prop where
  queue : s.queue.queue = []
  size : s.queue.size = 0
  dropped : s.queue.dropped = []
  ledger : s.ledger = {}

def perform (s : History) : Call → History × Answer
  | .enqueue packet hdr =>
    let (taken, queue) := s.queue.enqueue s.now packet hdr
    let ledger := s.ledger.leave .expired (s.queue.expired s.now)
    ({ s with queue, ledger := if taken then ledger.accept ⟨packet, hdr, s.now⟩ else ledger },
      .flag taken)
  | .dequeue =>
    let (i, queue) := s.queue.dequeue s.now
    let ledger := s.ledger.leave .expired (s.queue.expired s.now)
    ({ s with queue, ledger := ledger.leave .dequeued i.toList }, .item i)
  | .peek =>
    let (i, queue) := s.queue.peek s.now
    ({ s with queue, ledger := s.ledger.leave .expired (s.queue.expired s.now) }, .item i)
  | .isEmpty =>
    let (b, queue) := s.queue.isEmpty s.now
    ({ s with queue, ledger := s.ledger.leave .expired (s.queue.expired s.now) }, .flag b)
  | .remove found =>
    let (b, queue) := s.queue.remove found
    ({ s with queue, ledger := s.ledger.leave .removed (found.bind (s.queue.queue[·]?)).toList },
      .flag b)
  | .flush =>
    ({ s with queue := s.queue.flush, ledger := s.ledger.leave .flushed s.queue.queue }, .nothing)
  | .setMaxSize maxSize => ({ s with queue := s.queue.setMaxSize maxSize }, .nothing)
  | .setMaxDelay delay => ({ s with queue := s.queue.setMaxDelay delay }, .nothing)

/-- A call and the time at which it is made. -/
structure Event where
  time : Time
  call : Call

def Step (x : Transition History Event Answer) : Prop :=
  x.pre.now ≤ x.event.time ∧
    (x.post, x.out) = { x.pre with now := x.event.time }.perform x.event.call

/-! ### Calls at one time -/

/-- The history after calls that are all made at the present time. -/
def performAll (s : History) : List Call → History
  | [] => s
  | c :: cs => (s.perform c).1.performAll cs

theorem now_perform (s : History) (c : Call) : (s.perform c).1.now = s.now := by cases c <;> rfl

def transitions (s : History) : List Call → List (Transition History Event Answer)
  | [] => []
  | c :: cs => ⟨s, ⟨s.now, c⟩, (s.perform c).2, (s.perform c).1⟩ :: (s.perform c).1.transitions cs

theorem run_transitions (s : History) (cs : List Call) :
    Run Step s (s.transitions cs) (s.performAll cs) := by
  induction cs generalizing s with
  | nil => exact .nil s
  | cons c cs ih => exact .cons rfl ⟨le_rfl, rfl⟩ (ih _)

/-! ### Law -/

/-- The subtractions from the count that a call makes: what is there and what is taken
off. -/
def subtractions (now : Time) (q : TdmaMacQueue) : Call → List (UInt32 × ℕ)
  | .enqueue .. => [(q.size, (q.expired now).length)]
  | .dequeue => (q.size, (q.expired now).length) ::
      if (q.cleanup now).queue = [] then [] else [((q.cleanup now).size, 1)]
  | .peek => [(q.size, (q.expired now).length)]
  | .isEmpty => [(q.size, (q.expired now).length)]
  | .remove found => if (found.bind (q.queue[·]?)).isSome then [(q.size, 1)] else []
  | _ => []

/-- The call returns the oldest item that has not expired, or null if there is none. -/
def ReturnsOldest (now : Time) (q : TdmaMacQueue) (out : Answer) : Prop :=
  ∃ i, out = .item i ∧ (i = none ↔ ∀ j ∈ q.queue, ¬ q.Fresh now j) ∧
    ∀ a, i = some a ↔ ∃ older younger, q.queue = older ++ a :: younger ∧
      (∀ j ∈ older, ¬ q.Fresh now j) ∧ q.Fresh now a

/-- What a call does right. -/
structure Lawful (x : Transition History Event Answer) : Prop where
  counted : x.post.queue.Counted
  noUnderflow : ∀ m ∈ subtractions x.event.time x.pre.queue x.event.call, m.2 ≤ m.1.toNat
  books : x.post.ledger.Holds x.post.queue.queue
  /-- Exactly what expired was given to the drop callback, each item once. -/
  callbacks : x.post.queue.dropped = (x.post.ledger.leftBy .expired).map Item.packet
  oldest : x.event.call = .dequeue ∨ x.event.call = .peek →
    ReturnsOldest x.event.time x.pre.queue x.out
  sorted : x.post.queue.queue.Pairwise fun i j => i.tstamp ≤ j.tstamp
  order : ∃ kept new, x.post.queue.queue = kept ++ new ∧ kept.Sublist x.pre.queue.queue

/-- The call is not an Enqueue on a queue of 2^32 - 1 packets that is not full. -/
def Safe (x : Transition History Event Answer) : Prop :=
  ∀ packet hdr, x.event.call = .enqueue packet hdr →
    (x.pre.queue.queue.filter fun i => x.pre.queue.Fresh x.event.time i).length = 4294967295 →
      x.pre.queue.maxSize = 4294967295

/-- What holds between calls. -/
structure Consistent (s : History) : Prop where
  counted : s.queue.Counted
  books : s.ledger.Holds s.queue.queue
  callbacks : s.queue.dropped = (s.ledger.leftBy .expired).map Item.packet
  sorted : s.queue.queue.Pairwise fun i j => i.tstamp ≤ j.tstamp
  past : ∀ i ∈ s.queue.queue, i.tstamp ≤ s.now

end History

end TdmaMacQueue

end SAeroRP
