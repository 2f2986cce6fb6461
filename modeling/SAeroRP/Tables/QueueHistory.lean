import SAeroRP.Library.Ledger
import SAeroRP.Library.Run
import SAeroRP.Tables.RequestQueue

/-! The queue of waiting packets with its history: calls come one after the other at
times that do not go back, and the books keep which entries were accepted and which
have left, handed out or given to their error callback. -/

namespace SAeroRP

open Library

namespace RequestQueue

inductive Call where
  | enqueue (entry : QueueEntry)
  | dequeue (dst : Ipv4Address)
  | dropPacketWithDst (dst : Ipv4Address)
  | find (dst : Ipv4Address)
  | getSize

/-- How an entry leaves the queue. -/
inductive Departure where
  | returned
  | errorCallback
  deriving DecidableEq

/-- What a call returns, and the entries whose error callbacks it called, in order. -/
structure Answer where
  flag : Bool := true
  entry : Option QueueEntry := none
  size : ℕ := 0
  errors : List QueueEntry := []

structure History where
  now : Time
  queue : RequestQueue
  /-- History variable: the entries that were accepted and those that left. -/
  ledger : Ledger QueueEntry Departure := {}

namespace History

def perform (s : History) : Call → Except Fault (History × Answer)
  | .enqueue entry => do
    let (flag, queue, errors) ← s.queue.enqueue s.now entry
    let accepted := entry.setExpireTime s.now s.queue.queueTimeout
    let ledger := if flag then s.ledger.accept accepted else s.ledger
    return ({ s with queue, ledger := ledger.leave .errorCallback errors }, { flag, errors })
  | .dequeue dst =>
    let (entry, queue, errors) := s.queue.dequeue s.now dst
    let ledger := (s.ledger.leave .errorCallback errors).leave .returned entry.toList
    .ok ({ s with queue, ledger }, { flag := entry.isSome, entry, errors })
  | .dropPacketWithDst dst =>
    let (queue, errors) := s.queue.dropPacketWithDst s.now dst
    .ok ({ s with queue, ledger := s.ledger.leave .errorCallback errors }, { errors })
  | .find dst => .ok (s, { flag := s.queue.find dst })
  | .getSize =>
    let (size, queue, errors) := s.queue.getSize s.now
    .ok ({ s with queue, ledger := s.ledger.leave .errorCallback errors }, { size, errors })

/-- A call and the time at which it is made. -/
structure Event where
  time : Time
  call : Call

def Step (x : Transition History Event Answer) : Prop :=
  x.pre.now ≤ x.event.time ∧
    { x.pre with now := x.event.time }.perform x.event.call = .ok (x.post, x.out)

end History

end RequestQueue

end SAeroRP
