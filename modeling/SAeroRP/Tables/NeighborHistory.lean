import SAeroRP.Library.Run
import SAeroRP.Tables.NeighborTable

/-! The neighbour table with its history: entries are written, updated, deleted and purged
at times that do not go back, and the history keeps what was written last for every
address that has not been deleted since. -/

namespace SAeroRP

open Library

namespace NeighborTable

/-- A call that changes the table. -/
inductive Call where
  | addEntry (id : Ipv4Address) (position velocity : Vector3D)
  | updateEntry (id : Ipv4Address) (position velocity : Vector3D)
  | deleteEntry (id : Ipv4Address)
  | clear
  | purge

structure History where
  now : Time
  neighbors : NeighborTable
  /-- History variable: what AddEntry or UpdateEntry wrote last, and when, unless it was
  deleted. -/
  written : Ipv4Address → Option (NeighborTableEntry × Time)

namespace History

def write (s : History) (id : Ipv4Address) (e : NeighborTableEntry) :
    Ipv4Address → Option (NeighborTableEntry × Time) :=
  Function.update s.written id (some (e, s.now))

def perform (s : History) : Call → History
  | .addEntry id position velocity =>
    { s with
      neighbors := s.neighbors.addEntry s.now id position velocity
      written := s.write id ⟨position, velocity⟩ }
  | .updateEntry id position velocity =>
    { s with
      neighbors := s.neighbors.updateEntry s.now id position velocity
      written := s.write id ⟨position, velocity⟩ }
  | .deleteEntry id =>
    { s with
      neighbors := s.neighbors.deleteEntry id
      written := Function.update s.written id none }
  | .clear => { s with neighbors := s.neighbors.clear, written := fun _ => none }
  | .purge => { s with neighbors := s.neighbors.purge s.now }

/-- A call and the time at which it is made. -/
structure Event where
  time : Time
  call : Call

def Step (x : Transition History Event Unit) : Prop :=
  x.pre.now ≤ x.event.time ∧ x.post = { x.pre with now := x.event.time }.perform x.event.call

/-- The state after a purge at time `t`. -/
def purgeAt (s : History) (t : Time) : History := { s with now := t }.perform .purge

/-- The empty table, before anything was written. -/
structure Initial (s : History) : Prop where
  now : 0 ≤ s.now
  table : s.neighbors.table = ∅
  written : ∀ id, s.written id = none

end History

end NeighborTable

end SAeroRP
