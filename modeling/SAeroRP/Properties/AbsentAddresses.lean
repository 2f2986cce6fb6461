import SAeroRP.Tables.Lookups

/-! Lookups of an address that a table does not hold. Each should come back with the answer
for an unknown address, and leave the other entries alone. The test they make compares the
address with a key that is read through the end iterator, so only the lookups that answer
for 0.0.0.0 without a test come back. -/

namespace SAeroRP

variable {id : Ipv4Address} {now : Time}

namespace NeighborTable

/-- A lookup of an address, with the values it writes. -/
inductive Lookup where
  | getEntryUpdateTime
  | addEntry (position velocity : Vector3D)
  | updateEntry (position velocity : Vector3D)
  | getVelocity
  | getPosition
  | isNeighbour

namespace Lookup

/-- The lookup comes back without reading through the end iterator. It has the answer for
an unknown address, and of the entries at most that of the address is new. -/
def Safe (now : Time) (id : Ipv4Address) (t : NeighborTable) : Lookup → Prop
  | getEntryUpdateTime => ∃ time, Iterators.getEntryUpdateTime .undefined id t = .ok time
  | addEntry position velocity => ∃ t',
      Iterators.addEntry .undefined id t now position velocity = .ok t' ∧
        t'.table[id]? = some (⟨position, velocity⟩, now) ∧
          ∀ a ≠ id, t'.table[a]? = t.table[a]?
  | updateEntry position velocity => ∃ t',
      Iterators.updateEntry .undefined id t now position velocity = .ok t' ∧
        ∀ a ≠ id, t'.table[a]? = t.table[a]?
  | getVelocity => Iterators.getVelocity .undefined id t = .ok getInvalidVelocity
  | getPosition => Iterators.getPosition .undefined id t = .ok getInvalidPosition
  | isNeighbour => Iterators.isNeighbour .undefined id t = .ok false

/-- The lookups that answer for 0.0.0.0 at once. -/
def AnswersForZero : Lookup → Prop
  | getEntryUpdateTime | getVelocity | getPosition => True
  | addEntry .. | updateEntry .. | isNeighbour => False

theorem safe_iff (l : Lookup) {t : NeighborTable} (h : t.table[id]? = none) :
    l.Safe now id t ↔ l.AnswersForZero ∧ id = Ipv4Address.getZero := by
  have hfound := EntryTable.found_undefined h
  cases l with
  | getEntryUpdateTime =>
    exact (EntryTable.readUpdateTime_undefined_iff h).trans (iff_of_eq (true_and _)).symm
  | addEntry position velocity =>
    simp [Safe, AnswersForZero, Iterators.addEntry, EntryTable.write_undefined h]
  | updateEntry position velocity =>
    simp [Safe, AnswersForZero, Iterators.updateEntry, hfound, error_bind]
  | getVelocity => exact (EntryTable.read_undefined_iff h).trans (iff_of_eq (true_and _)).symm
  | getPosition => exact (EntryTable.read_undefined_iff h).trans (iff_of_eq (true_and _)).symm
  | isNeighbour => simp [Safe, AnswersForZero, Iterators.isNeighbour, hfound]

end Lookup

end NeighborTable

namespace NodesPositionTable

inductive Lookup where
  | getEntryUpdateTime
  | addEntry (position : Vector3D)
  | updateEntry (position : Vector3D)
  | getPosition

namespace Lookup

def Safe (now : Time) (id : Ipv4Address) (t : NodesPositionTable) : Lookup → Prop
  | getEntryUpdateTime => ∃ time, Iterators.getEntryUpdateTime .undefined id t = .ok time
  | addEntry position => ∃ t',
      Iterators.addEntry .undefined id t now position = .ok t' ∧
        t'.table[id]? = some (position, now) ∧ ∀ a ≠ id, t'.table[a]? = t.table[a]?
  | updateEntry position => ∃ t',
      Iterators.updateEntry .undefined id t position = .ok t' ∧
        ∀ a ≠ id, t'.table[a]? = t.table[a]?
  | getPosition => Iterators.getPosition .undefined id t = .ok getInvalidPosition

def AnswersForZero : Lookup → Prop
  | getEntryUpdateTime | getPosition => True
  | addEntry .. | updateEntry .. => False

theorem safe_iff (l : Lookup) {t : NodesPositionTable} (h : t.table[id]? = none) :
    l.Safe now id t ↔ l.AnswersForZero ∧ id = Ipv4Address.getZero := by
  have hfound := EntryTable.found_undefined h
  cases l with
  | getEntryUpdateTime =>
    exact (EntryTable.readUpdateTime_undefined_iff h).trans (iff_of_eq (true_and _)).symm
  | addEntry position =>
    simp [Safe, AnswersForZero, Iterators.addEntry, EntryTable.write_undefined h]
  | updateEntry position =>
    simp [Safe, AnswersForZero, Iterators.updateEntry, hfound, error_bind]
  | getPosition => exact (EntryTable.read_undefined_iff h).trans (iff_of_eq (true_and _)).symm

end Lookup

end NodesPositionTable

namespace AbsentAddresses

/-- A lookup of an address that is in neither table is safe exactly when it answers for
0.0.0.0 at once and that is the address. -/
theorem lookup_safe_iff (neighbors : NeighborTable) (nodesPosition : NodesPositionTable)
    (now : Time) (id : Ipv4Address) (hneighbors : neighbors.table[id]? = none)
    (hnodes : nodesPosition.table[id]? = none) :
    (∀ l : NeighborTable.Lookup,
        l.Safe now id neighbors ↔ l.AnswersForZero ∧ id = Ipv4Address.getZero) ∧
      ∀ l : NodesPositionTable.Lookup,
        l.Safe now id nodesPosition ↔ l.AnswersForZero ∧ id = Ipv4Address.getZero :=
  ⟨fun l => l.safe_iff hneighbors, fun l => l.safe_iff hnodes⟩

/-- The position of 0.0.0.0 in the empty table. -/
theorem lookup_safe_iff_zero :
    NodesPositionTable.Lookup.getPosition.Safe 0 Ipv4Address.getZero {} :=
  ((lookup_safe_iff {} {} 0 Ipv4Address.getZero (by simp) (by simp)).2 _).mpr ⟨trivial, rfl⟩

/-- The first neighbour is not yet known. -/
theorem first_neighbour_not_safe :
    ¬ NeighborTable.Lookup.isNeighbour.Safe 0 (.ofOctets 192 168 1 2) {} := by
  rw [NeighborTable.Lookup.safe_iff _ (by simp)]
  exact fun h => h.1

end AbsentAddresses

end SAeroRP
