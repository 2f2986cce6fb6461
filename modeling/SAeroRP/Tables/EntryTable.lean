import SAeroRP.Library.Erase
import SAeroRP.Ns3.Basic

/-! The map both tables of the protocol keep: an address is mapped to a value
and the time it was written. The neighbour table and the position table repeat
the same code over it with their own values and life times. The address 0.0.0.0
counts as written at time 0, so a purge may drop its entry early, never late. -/

namespace SAeroRP

open Library

abbrev EntryTable (V : Type) := Std.ExtTreeMap Ipv4Address (V × Time)

namespace EntryTable

variable {V : Type}

/-- The update time the tables use for an entry they hold. -/
def updateTime (id : Ipv4Address) (e : V × Time) : Time :=
  if id = Ipv4Address.getZero then Time.seconds 0 else e.2

/-- Outside the table the end iterator is dereferenced. -/
def getEntryUpdateTime (t : EntryTable V) (id : Ipv4Address) : Except Fault Time :=
  if id = Ipv4Address.getZero then .ok (Time.seconds 0)
  else match t[id]? with
    | some e => .ok (updateTime id e)
    | none => .error .endIterator

def addEntry (now : Time) (id : Ipv4Address) (v : V) (t : EntryTable V) : EntryTable V :=
  (t.erase id).insert id (v, now)

def deleteEntry (id : Ipv4Address) (t : EntryTable V) : EntryTable V := t.erase id

/-- An entry is dropped once `lifeTime` has passed since its update time. -/
def expired (lifeTime now : Time) (id : Ipv4Address) (e : V × Time) : Bool :=
  decide (lifeTime + updateTime id e ≤ now)

def purge (lifeTime now : Time) (t : EntryTable V) : EntryTable V :=
  if t.isEmpty then t else eraseDead (expired lifeTime now) t

/-- The address was last written less than `lifeTime` ago. -/
def Live (lifeTime now : Time) (t : EntryTable V) (a : Ipv4Address) : Prop :=
  ∃ e, t[a]? = some e ∧ now < e.2 + lifeTime

instance (lifeTime now : Time) (t : EntryTable V) (a : Ipv4Address) :
    Decidable (Live lifeTime now t a) :=
  decidable_of_iff (t[a]?.any (fun e => now < e.2 + lifeTime) = true) <| by
    unfold Live
    cases t[a]? <;> simp

/-- No entry was written before the start or after `now`. -/
def Timely (now : Time) (t : EntryTable V) : Prop :=
  ∀ (a : Ipv4Address) (e : V × Time), t[a]? = some e → 0 ≤ e.2 ∧ e.2 ≤ now

theorem getElem?_addEntry (now : Time) (id a : Ipv4Address) (v : V) (t : EntryTable V) :
    (t.addEntry now id v)[a]? = if id = a then some (v, now) else t[a]? := by
  rw [addEntry, Std.ExtTreeMap.getElem?_insert, Std.ExtTreeMap.getElem?_erase]
  by_cases h : id = a <;> simp [h]

theorem getElem?_deleteEntry (id a : Ipv4Address) (t : EntryTable V) :
    (t.deleteEntry id)[a]? = if id = a then none else t[a]? := by
  rw [deleteEntry, Std.ExtTreeMap.getElem?_erase]
  by_cases h : id = a <;> simp [h]

theorem getElem?_purge (lifeTime now : Time) (t : EntryTable V) (a : Ipv4Address) :
    (t.purge lifeTime now)[a]? = t[a]?.filter fun e => !expired lifeTime now a e := by
  unfold purge
  split_ifs with h
  · rw [Std.ExtTreeMap.isEmpty_iff] at h
    simp [h]
  · exact getElem?_eraseDead _ _ _

theorem getElem?_purge_eq_some {lifeTime now : Time} {t : EntryTable V} {a : Ipv4Address}
    {e : V × Time} :
    (t.purge lifeTime now)[a]? = some e ↔ t[a]? = some e ∧ now < lifeTime + updateTime a e := by
  rw [getElem?_purge, Option.filter_eq_some_iff]
  simp [expired]

/-- A purge drops nothing from a table without expired entries. -/
theorem purge_of_forall {lifeTime now : Time} {t : EntryTable V}
    (h : ∀ (a : Ipv4Address) (e : V × Time), t[a]? = some e → now < lifeTime + updateTime a e) :
    t.purge lifeTime now = t := by
  apply Std.ExtTreeMap.ext_getElem?
  intro a
  cases ha : t[a]? with
  | none =>
    rw [getElem?_purge, ha]
    rfl
  | some e => exact getElem?_purge_eq_some.mpr ⟨ha, h a e ha⟩

@[simp] theorem purge_purge (lifeTime now : Time) (t : EntryTable V) :
    (t.purge lifeTime now).purge lifeTime now = t.purge lifeTime now :=
  purge_of_forall fun _ _ h => (getElem?_purge_eq_some.mp h).2

/-! ### Entry times -/

theorem Timely.mono {now now' : Time} {t : EntryTable V} (h : Timely now t) (hn : now ≤ now') :
    Timely now' t := fun a e he => ⟨(h a e he).1, (h a e he).2.trans hn⟩

theorem Timely.addEntry {now : Time} {t : EntryTable V} (h : Timely now t) (hnow : 0 ≤ now)
    (id : Ipv4Address) (v : V) : Timely now (t.addEntry now id v) := by
  intro a e he
  rw [getElem?_addEntry] at he
  split_ifs at he
  · cases he
    exact ⟨hnow, le_rfl⟩
  · exact h a e he

theorem Timely.purge {now now' lifeTime : Time} {t : EntryTable V} (h : Timely now t) :
    Timely now (t.purge lifeTime now') :=
  fun a e he => h a e (getElem?_purge_eq_some.mp he).1

/-- What a purge leaves is live. -/
theorem Timely.live_of_purge {lifeTime now : Time} {t : EntryTable V} (h : Timely now t)
    {a : Ipv4Address} {e : V × Time} (he : (t.purge lifeTime now)[a]? = some e) :
    Live lifeTime now (t.purge lifeTime now) a := by
  refine ⟨e, he, ?_⟩
  obtain ⟨ht, hlt⟩ := getElem?_purge_eq_some.mp he
  have h0 := (h a e ht).1
  unfold updateTime Time.seconds at hlt
  split_ifs at hlt <;> linarith

/-- A purge at the present time keeps what is live, except at 0.0.0.0. -/
theorem Live.purge {lifeTime now : Time} {t : EntryTable V} {a : Ipv4Address}
    (h : Live lifeTime now t a) (ha : a ≠ Ipv4Address.getZero) :
    Live lifeTime now (t.purge lifeTime now) a := by
  obtain ⟨e, he, hlt⟩ := h
  refine ⟨e, getElem?_purge_eq_some.mpr ⟨he, ?_⟩, hlt⟩
  rw [updateTime, if_neg ha]
  linarith

end EntryTable

end SAeroRP
