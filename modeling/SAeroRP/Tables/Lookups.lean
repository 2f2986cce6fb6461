import SAeroRP.Tables.NeighborTable
import SAeroRP.Tables.NodesPositionTable

/-! The lookups of both tables with the iterators they go through. A lookup asks for the
iterator of an address, and for an address the table does not hold that is the end
iterator. What reading through it yields is a parameter: a fault, as the language has it,
or whatever stands in memory there. As long as this is not the key that was looked for, the
lookups are those of the tables. -/

namespace SAeroRP

/-- What reading a key and a value through the end iterator yields. -/
abbrev EndIterator (V : Type) := Except Fault (Ipv4Address × V × Time)

/-- The end iterator must not be read. -/
def EndIterator.undefined {V : Type} : EndIterator V := .error .endIterator

namespace EntryTable

variable {V A : Type} (atEnd : EndIterator V) (id : Ipv4Address) (t : EntryTable V)

/-- What the iterator that find returns points to. -/
def deref : Except Fault (Ipv4Address × V × Time) :=
  match t[id]? with
  | some e => .ok (id, e)
  | none => atEnd

/-- The test of the lookups: the iterator is not the end, or its key is the address. -/
def found : Except Fault Bool :=
  if t[id]?.isSome then .ok true
  else do
    let (key, _) ← t.deref atEnd id
    return id = key

/-- A lookup of a value, with the answer for 0.0.0.0 and for an unknown address. -/
def read (invalid : A) (value : V → A) : Except Fault A :=
  if id = Ipv4Address.getZero then .ok invalid
  else do
    if ← t.found atEnd id then
      let (_, v, _) ← t.deref atEnd id
      return value v
    else return invalid

/-- The lookup of an update time makes no test. -/
def readUpdateTime : Except Fault Time :=
  if id = Ipv4Address.getZero then .ok (Time.seconds 0)
  else do
    let (_, _, time) ← t.deref atEnd id
    return time

/-- AddEntry: an entry that is there is erased first. -/
def write (now : Time) (v : V) : Except Fault (EntryTable V) := do
  if ← t.found atEnd id then return (t.erase id).insert id (v, now)
  else return t.insert id (v, now)

/-- Writing a value through the iterator that find returns. -/
def writeThrough (v : V) : Except Fault (EntryTable V) :=
  match t[id]? with
  | some e => .ok (t.insert id (v, e.2))
  | none => .error .endIterator

end EntryTable

namespace NeighborTable

def getInvalidPosition : Vector3D := ⟨-1, -1, 0⟩

def getInvalidVelocity : Vector3D := ⟨-1, -1, 0⟩

namespace Iterators

variable (atEnd : EndIterator NeighborTableEntry) (id : Ipv4Address) (t : NeighborTable)

def getEntryUpdateTime : Except Fault Time := t.table.readUpdateTime atEnd id

def addEntry (now : Time) (position velocity : Vector3D) : Except Fault NeighborTable := do
  let table ← t.table.write atEnd id now ⟨position, velocity⟩
  return { t with table }

def updateEntry (now : Time) (position velocity : Vector3D) : Except Fault NeighborTable := do
  if ← t.table.found atEnd id then
    let table ← t.table.writeThrough id ⟨position, velocity⟩
    return { t with table }
  else addEntry atEnd id t now position velocity

def getVelocity : Except Fault Vector3D :=
  t.table.read atEnd id getInvalidVelocity NeighborTableEntry.velocity

def getPosition : Except Fault Vector3D :=
  t.table.read atEnd id getInvalidPosition NeighborTableEntry.position

def isNeighbour : Except Fault Bool := t.table.found atEnd id

end Iterators

end NeighborTable

namespace NodesPositionTable

/-- An entry that is there gets the new position and keeps its time. -/
def updateEntry (id : Ipv4Address) (position : Vector3D) (t : NodesPositionTable) :
    NodesPositionTable :=
  match t.table[id]? with
  | some e => ⟨t.table.insert id (position, e.2)⟩
  | none => t

namespace Iterators

variable (atEnd : EndIterator Vector3D) (id : Ipv4Address) (t : NodesPositionTable)

def getEntryUpdateTime : Except Fault Time := t.table.readUpdateTime atEnd id

def addEntry (now : Time) (position : Vector3D) : Except Fault NodesPositionTable := do
  let table ← t.table.write atEnd id now position
  return ⟨table⟩

def updateEntry (position : Vector3D) : Except Fault NodesPositionTable := do
  if ← t.table.found atEnd id then
    let table ← t.table.writeThrough id position
    return ⟨table⟩
  else return t

def getPosition : Except Fault Vector3D :=
  t.table.read atEnd id getInvalidPosition fun position => position

end Iterators

end NodesPositionTable

/-! ### The end iterator -/

namespace EntryTable

variable {V A : Type} {id : Ipv4Address} {t : EntryTable V} (h : t[id]? = none)
include h

theorem deref_undefined : t.deref EndIterator.undefined id = .error .endIterator := by
  rw [deref, h]
  rfl

/-- The test of an address that is not there reads through the end iterator. -/
theorem found_undefined : t.found EndIterator.undefined id = .error .endIterator := by
  rw [found, h, deref_undefined h]
  rfl

theorem write_undefined {now : Time} {v : V} :
    t.write EndIterator.undefined id now v = .error .endIterator := by
  rw [write, found_undefined h, error_bind]

/-- A value is looked up without a fault only at 0.0.0.0. -/
theorem read_undefined_iff {invalid : A} {value : V → A} :
    t.read EndIterator.undefined id invalid value = .ok invalid ↔ id = Ipv4Address.getZero := by
  rw [read, found_undefined h, error_bind]
  split_ifs with hzero
  · exact iff_of_true rfl hzero
  · exact iff_of_false (fun hok => by cases hok) hzero

theorem readUpdateTime_undefined_iff :
    (∃ time, t.readUpdateTime EndIterator.undefined id = .ok time) ↔
      id = Ipv4Address.getZero := by
  rw [readUpdateTime, deref_undefined h, error_bind]
  split_ifs with hzero
  · exact iff_of_true ⟨_, rfl⟩ hzero
  · exact iff_of_false (fun hok => by cases hok.choose_spec) hzero

end EntryTable

/-! ### Known addresses -/

namespace EntryTable

variable {V : Type} {id : Ipv4Address} {t : EntryTable V} {now : Time} {v : V}

end EntryTable

namespace NeighborTable

end NeighborTable

namespace NodesPositionTable

end NodesPositionTable

/-! ### Another key at the end -/

namespace EntryTable

variable {V A : Type} {id key : Ipv4Address} {t : EntryTable V} {e : V × Time} (h : id ≠ key)
include h

/-- If the key there is another one, the test says whether the address is in the table. -/
theorem found_of_key_ne : t.found (.ok (key, e)) id = .ok t[id]?.isSome := by
  cases hid : t[id]? with
  | none =>
    simp only [found, deref, hid, ok_bind, decide_eq_false h]
    rfl
  | some e =>
    rw [found, hid]
    rfl

theorem write_of_key_ne {now : Time} {v : V} :
    t.write (.ok (key, e)) id now v = .ok (t.addEntry now id v) := by
  have hinsert : t.insert id (v, now) = t.addEntry now id v := by
    apply Std.ExtTreeMap.ext_getElem?
    intro a
    rw [getElem?_addEntry, Std.ExtTreeMap.getElem?_insert]
    by_cases ha : id = a <;> simp [ha]
  rw [write, found_of_key_ne h, ok_bind, hinsert]
  split_ifs <;> rfl

theorem read_of_key_ne {invalid : A} {value : V → A} :
    t.read (.ok (key, e)) id invalid value =
      .ok (if id = Ipv4Address.getZero then invalid
        else t[id]?.elim invalid fun e => value e.1) := by
  rw [read, found_of_key_ne h, ok_bind]
  split_ifs with hzero hid
  · rfl
  · obtain ⟨e', he'⟩ := Option.isSome_iff_exists.mp hid
    simp only [deref, he']
    rfl
  · rw [Option.not_isSome_iff_eq_none.mp hid]
    rfl

end EntryTable

section
variable {id key : Ipv4Address} (h : id ≠ key)
include h

namespace NeighborTable.Iterators

variable {t : NeighborTable} {e : NeighborTableEntry × Time}

theorem isNeighbour_eq : isNeighbour (.ok (key, e)) id t = .ok (t.isNeighbour id) :=
  EntryTable.found_of_key_ne h

theorem addEntry_eq (now : Time) (position velocity : Vector3D) :
    addEntry (.ok (key, e)) id t now position velocity =
      .ok (t.addEntry now id position velocity) := by
  rw [addEntry, EntryTable.write_of_key_ne h]
  rfl

theorem updateEntry_eq (now : Time) (position velocity : Vector3D) :
    updateEntry (.ok (key, e)) id t now position velocity =
      .ok (t.updateEntry now id position velocity) := by
  rw [updateEntry, EntryTable.found_of_key_ne h, ok_bind, NeighborTable.updateEntry]
  cases hid : t.table[id]? with
  | none => exact addEntry_eq h now position velocity
  | some e =>
    simp only [EntryTable.writeThrough, hid, Option.isSome_some, if_true]
    rfl

end NeighborTable.Iterators

namespace NodesPositionTable.Iterators

variable {t : NodesPositionTable} {e : Vector3D × Time}

theorem addEntry_eq (now : Time) (position : Vector3D) :
    addEntry (.ok (key, e)) id t now position = .ok (t.addEntry now id position) := by
  rw [addEntry, EntryTable.write_of_key_ne h]
  rfl

theorem updateEntry_eq (position : Vector3D) :
    updateEntry (.ok (key, e)) id t position = .ok (t.updateEntry id position) := by
  rw [updateEntry, EntryTable.found_of_key_ne h, ok_bind, NodesPositionTable.updateEntry]
  cases hid : t.table[id]? with
  | none => rfl
  | some e =>
    simp only [EntryTable.writeThrough, hid, Option.isSome_some, if_true]
    rfl

theorem getPosition_eq : getPosition (.ok (key, e)) id t = .ok (t.getPosition id) := by
  rw [getPosition, EntryTable.read_of_key_ne h, NodesPositionTable.getPosition]
  cases t.table[id]? <;> rfl

end NodesPositionTable.Iterators

end

end SAeroRP
