import SAeroRP.Tables.EntryTable

/-! The positions of all nodes as the ground station advertises them. A lookup
does not look at the age of the entry it finds, and answers for an address it
does not hold with an ordinary vector. -/

namespace SAeroRP

structure NodesPositionTable where
  table : EntryTable Vector3D := ∅

namespace NodesPositionTable

def entryLifeTime : Time := Time.seconds 5

def getInvalidPosition : Vector3D := ⟨-1, -1, 0⟩

def addEntry (now : Time) (id : Ipv4Address) (position : Vector3D) (t : NodesPositionTable) :
    NodesPositionTable := ⟨t.table.addEntry now id position⟩

-- a miss is taken as a miss: what the source compares next is no entry's key
def getPosition (t : NodesPositionTable) (id : Ipv4Address) : Vector3D :=
  if id = Ipv4Address.getZero then getInvalidPosition
  else match t.table[id]? with
    | some e => e.1
    | none => getInvalidPosition

def purge (now : Time) (t : NodesPositionTable) : NodesPositionTable :=
  ⟨t.table.purge entryLifeTime now⟩

def clear (t : NodesPositionTable) : NodesPositionTable := { t with table := ∅ }

/-- The position of the address was received less than a life time ago. -/
def Fresh (now : Time) (t : NodesPositionTable) (a : Ipv4Address) : Prop :=
  EntryTable.Live entryLifeTime now t.table a

instance (now : Time) (t : NodesPositionTable) (a : Ipv4Address) : Decidable (t.Fresh now a) :=
  inferInstanceAs (Decidable (EntryTable.Live ..))

end NodesPositionTable

end SAeroRP
