import SAeroRP.Tables.NeighborHistory

/-! Whether the neighbour table follows what was written. An entry should stay for a life
time after it was written last. A purge goes by the update time of an entry, which is the
time it was inserted, and 0 for the address 0.0.0.0; it drops an entry early exactly when
this is before the last write. -/

namespace SAeroRP

open Library

namespace NeighborTable

variable {now : Time} {id : Ipv4Address} {position velocity : Vector3D} {t : NeighborTable}

theorem isNeighbour_iff : t.isNeighbour id = true ↔ ∃ e, t.table[id]? = some e :=
  Option.isSome_iff_exists

theorem getElem?_purge_eq_some {e : NeighborTableEntry × Time} :
    (t.purge now).table[id]? = some e ↔
      t.table[id]? = some e ∧ now < entryLifeTime + EntryTable.updateTime id e :=
  EntryTable.getElem?_purge_eq_some

/-- The time an entry has after UpdateEntry: its own, if it was there. -/
def updatedTime (now : Time) (id : Ipv4Address) (t : NeighborTable) : Time :=
  match t.table[id]? with
  | some e => e.2
  | none => now

theorem getElem?_updateEntry (now : Time) (id a : Ipv4Address) (position velocity : Vector3D)
    (t : NeighborTable) :
    (t.updateEntry now id position velocity).table[a]? =
      if id = a then some (⟨position, velocity⟩, t.updatedTime now id) else t.table[a]? := by
  unfold updateEntry updatedTime
  cases hid : t.table[id]? with
  | none => exact EntryTable.getElem?_addEntry now id a _ t.table
  | some e => by_cases h : id = a <;> simp [h, Std.ExtTreeMap.getElem?_insert]

namespace History

/-- The table holds what was written less than a life time ago, and nothing else. -/
structure FollowsWrites (s : History) : Prop where
  contains : ∀ id, s.neighbors.isNeighbour id = true ↔
    ∃ w, s.written id = some w ∧ s.now < w.2 + entryLifeTime
  stored : ∀ (id : Ipv4Address) (e : NeighborTableEntry × Time),
    s.neighbors.table[id]? = some e → ∃ w, s.written id = some w ∧ e.1 = w.1

/-- After the call a purge follows the writes, whenever it comes. -/
def PurgesFollow (x : Transition History Event Unit) : Prop :=
  ∀ t, x.post.now ≤ t → FollowsWrites (x.post.purgeAt t)

/-- A write gives its address the present time as update time: it inserts the entry or
finds it with that time, and does not go to 0.0.0.0 after time 0. -/
def Refreshes (x : Transition History Event Unit) : Prop :=
  match x.event.call with
  | .addEntry id _ _ => id = Ipv4Address.getZero → x.event.time = 0
  | .updateEntry id _ _ =>
    if id = Ipv4Address.getZero then x.event.time = 0
    else ∀ e, x.pre.neighbors.table[id]? = some e → e.2 = x.event.time
  | _ => True

/-- Every entry is what was written last, with the time of that write as its update time,
and a write without an entry is a life time old. -/
structure Current (s : History) : Prop where
  now : 0 ≤ s.now
  entry : ∀ (id : Ipv4Address) (e : NeighborTableEntry × Time),
    s.neighbors.table[id]? = some e → s.written id = some (e.1, EntryTable.updateTime id e)
  past : ∀ id w, s.written id = some w → w.2 ≤ s.now
  gone : ∀ id w, s.neighbors.table[id]? = none → s.written id = some w →
    w.2 + entryLifeTime ≤ s.now

theorem Initial.current {s : History} (h : s.Initial) : s.Current where
  now := h.now
  entry id e he := by simp [h.table] at he
  past id w hw := by simp [h.written] at hw
  gone id w _ hw := by simp [h.written] at hw

theorem Current.mono {s : History} (h : s.Current) {t : Time} (ht : s.now ≤ t) :
    Current { s with now := t } where
  now := h.now.trans ht
  entry := h.entry
  past id w hw := (h.past id w hw).trans ht
  gone id w hnone hw := (h.gone id w hnone hw).trans ht

/-- A purge of a table that is up to date follows the writes. -/
theorem Current.followsWrites {s : History} (h : s.Current) {t : Time} (ht : s.now ≤ t) :
    FollowsWrites (s.purgeAt t) where
  contains id := by
    rw [isNeighbour_iff]
    constructor
    · rintro ⟨e, he⟩
      obtain ⟨he, hlt⟩ := getElem?_purge_eq_some.mp he
      exact ⟨_, h.entry id e he, by rwa [add_comm] at hlt⟩
    · rintro ⟨w, hw, hlt⟩
      have hw : s.written id = some w := hw
      have hlt : t < w.2 + entryLifeTime := hlt
      cases he : s.neighbors.table[id]? with
      | none => exact absurd hlt (not_lt.mpr ((h.gone id w he hw).trans ht))
      | some e =>
        rw [h.entry id e he] at hw
        cases hw
        exact ⟨e, getElem?_purge_eq_some.mpr ⟨he, by rwa [add_comm] at hlt⟩⟩
  stored id e he := ⟨_, h.entry id e (getElem?_purge_eq_some.mp he).1, rfl⟩

/-- An entry that was written now but has an earlier update time is dropped early. -/
theorem not_followsWrites {s : History} {id : Ipv4Address} {e : NeighborTableEntry × Time}
    {v : NeighborTableEntry} (he : s.neighbors.table[id]? = some e)
    (hw : s.written id = some (v, s.now)) (hearly : EntryTable.updateTime id e < s.now) :
    ∃ t, s.now ≤ t ∧ ¬ FollowsWrites (s.purgeAt t) := by
  refine ⟨max s.now (entryLifeTime + EntryTable.updateTime id e), le_max_left _ _, fun hf => ?_⟩
  have hlife : 0 < entryLifeTime := by decide
  have hlt : max s.now (entryLifeTime + EntryTable.updateTime id e) < s.now + entryLifeTime := by
    rw [max_lt_iff]
    constructor <;> linarith
  obtain ⟨e', he'⟩ := isNeighbour_iff.mp ((hf.contains id).mpr ⟨_, hw, hlt⟩)
  obtain ⟨he', hkept⟩ := getElem?_purge_eq_some.mp he'
  rw [he] at he'
  cases he'
  exact absurd hkept (not_lt.mpr (le_max_right _ _))

/-! ### Writes -/

/-- After a write whose entry has the present time as update time the table is up to
date. -/
theorem Current.write {s : History} (h : s.Current) {neighbors : NeighborTable}
    {id : Ipv4Address} {e : NeighborTableEntry × Time}
    (htable : ∀ a : Ipv4Address,
      neighbors.table[a]? = if id = a then some e else s.neighbors.table[a]?)
    (htime : EntryTable.updateTime id e = s.now) :
    Current { s with neighbors, written := s.write id e.1 } where
  now := h.now
  entry a e' he' := by
    rw [htable] at he'
    show Function.update s.written id (some (e.1, s.now)) a = _
    split_ifs at he' with ha
    · cases he'
      rw [ha, Function.update_self, ← ha, htime]
    · rw [Function.update_of_ne (Ne.symm ha), h.entry a e' he']
  past a w hw := by
    have hw : Function.update s.written id (some (e.1, s.now)) a = some w := hw
    rw [Function.update_apply] at hw
    split_ifs at hw with ha
    · cases hw
      exact le_rfl
    · exact h.past a w hw
  gone a w hnone hw := by
    have hw : Function.update s.written id (some (e.1, s.now)) a = some w := hw
    rw [htable] at hnone
    split_ifs at hnone with ha
    rw [Function.update_of_ne (Ne.symm ha)] at hw
    exact h.gone a w hnone hw

/-- Every purge after a write follows the writes exactly when the entry has the present
time as update time. -/
theorem Current.write_follows_iff {s : History} (h : s.Current) {neighbors : NeighborTable}
    {id : Ipv4Address} {e : NeighborTableEntry × Time}
    (htable : ∀ a : Ipv4Address,
      neighbors.table[a]? = if id = a then some e else s.neighbors.table[a]?)
    (hle : EntryTable.updateTime id e ≤ s.now) :
    (∀ t, s.now ≤ t →
        FollowsWrites (purgeAt { s with neighbors, written := s.write id e.1 } t)) ↔
      EntryTable.updateTime id e = s.now := by
  constructor
  · intro hfollows
    by_contra hne
    have he : neighbors.table[id]? = some e := by rw [htable, if_pos rfl]
    have hw : s.write id e.1 id = some (e.1, s.now) := Function.update_self ..
    obtain ⟨t, ht, hnot⟩ := not_followsWrites
      (s := { s with neighbors, written := s.write id e.1 }) he hw (lt_of_le_of_ne hle hne)
    exact hnot (hfollows t ht)
  · intro htime t ht
    exact (h.write htable htime).followsWrites ht

theorem updateTime_now_iff {v : NeighborTableEntry} :
    EntryTable.updateTime id (v, now) = now ↔ (id = Ipv4Address.getZero → now = 0) := by
  unfold EntryTable.updateTime
  split_ifs with hid
  · simp only [hid, true_imp_iff]
    exact eq_comm
  · exact iff_of_true rfl fun h => absurd h hid

theorem updateTime_now_le {v : NeighborTableEntry} (h : 0 ≤ now) :
    EntryTable.updateTime id (v, now) ≤ now := by
  unfold EntryTable.updateTime
  split_ifs
  · exact h
  · exact le_rfl

theorem updateTime_updatedTime_iff {v : NeighborTableEntry} :
    EntryTable.updateTime id (v, t.updatedTime now id) = now ↔
      if id = Ipv4Address.getZero then now = 0 else ∀ e, t.table[id]? = some e → e.2 = now := by
  unfold EntryTable.updateTime updatedTime
  split_ifs with hid
  · exact eq_comm
  · cases he : t.table[id]? <;> simp

theorem Current.updateTime_updatedTime_le {s : History} (h : s.Current)
    {v : NeighborTableEntry} :
    EntryTable.updateTime id (v, s.neighbors.updatedTime s.now id) ≤ s.now := by
  unfold updatedTime
  cases he : s.neighbors.table[id]? with
  | none => exact updateTime_now_le h.now
  | some e => exact h.past id _ (h.entry id e he)

/-! ### Deletions -/

theorem Current.deleteEntry {s : History} (h : s.Current) (id : Ipv4Address) :
    (s.perform (.deleteEntry id)).Current where
  now := h.now
  entry a e he := by
    have he : (s.neighbors.table.deleteEntry id)[a]? = some e := he
    show Function.update s.written id none a = _
    rw [EntryTable.getElem?_deleteEntry] at he
    split_ifs at he with ha
    rw [Function.update_of_ne (Ne.symm ha), h.entry a e he]
  past a w hw := by
    have hw : Function.update s.written id none a = some w := hw
    rw [Function.update_apply] at hw
    split_ifs at hw
    exact h.past a w hw
  gone a w hnone hw := by
    have hnone : (s.neighbors.table.deleteEntry id)[a]? = none := hnone
    have hw : Function.update s.written id none a = some w := hw
    rw [Function.update_apply] at hw
    split_ifs at hw with ha
    rw [EntryTable.getElem?_deleteEntry, if_neg (Ne.symm ha)] at hnone
    exact h.gone a w hnone hw

theorem Current.clear {s : History} (h : s.Current) : (s.perform .clear).Current where
  now := h.now
  entry a e he := by simp [perform, NeighborTable.clear] at he
  past a w hw := by cases hw
  gone a w _ hw := by cases hw

theorem Current.purge {s : History} (h : s.Current) : (s.perform .purge).Current where
  now := h.now
  entry a e he := h.entry a e (getElem?_purge_eq_some.mp he).1
  past := h.past
  gone a w hnone hw := by
    by_contra hlive
    have hw : s.written a = some w := hw
    obtain ⟨e, he⟩ := isNeighbour_iff.mp
      (((h.followsWrites le_rfl).contains a).mpr ⟨w, hw, not_le.mp hlive⟩)
    have he : (s.neighbors.purge s.now).table[a]? = some e := he
    have hnone : (s.neighbors.purge s.now).table[a]? = none := hnone
    rw [he] at hnone
    cases hnone

/-! ### Runs -/

/-- One call: every later purge follows the writes exactly when the call, if it is a write,
refreshes its entry. -/
theorem purgesFollow_iff {x : Transition History Event Unit} (hx : Step x) (h : x.pre.Current) :
    PurgesFollow x ↔ Refreshes x := by
  obtain ⟨s, ⟨time, call⟩, out, post⟩ := x
  have hpost : post = { s with now := time }.perform call := hx.2
  subst hpost
  have h := h.mono hx.1
  cases call with
  | addEntry id position velocity =>
    exact (h.write_follows_iff (fun a => EntryTable.getElem?_addEntry _ id a _ _)
      (updateTime_now_le h.now)).trans updateTime_now_iff
  | updateEntry id position velocity =>
    exact (h.write_follows_iff (fun a => getElem?_updateEntry _ id a position velocity _)
      h.updateTime_updatedTime_le).trans updateTime_updatedTime_iff
  | deleteEntry id =>
    exact iff_of_true (fun t ht => (h.deleteEntry id).followsWrites ht) trivial
  | clear => exact iff_of_true (fun t ht => h.clear.followsWrites ht) trivial
  | purge => exact iff_of_true (fun t ht => h.purge.followsWrites ht) trivial

theorem Current.step {x : Transition History Event Unit} (hx : Step x) (hc : Refreshes x)
    (h : x.pre.Current) : x.post.Current := by
  obtain ⟨s, ⟨time, call⟩, out, post⟩ := x
  have hpost : post = { s with now := time }.perform call := hx.2
  subst hpost
  have h := h.mono hx.1
  cases call with
  | addEntry id position velocity =>
    exact h.write (fun a => EntryTable.getElem?_addEntry _ id a _ _) (updateTime_now_iff.mpr hc)
  | updateEntry id position velocity =>
    exact h.write (fun a => getElem?_updateEntry _ id a position velocity _)
      (updateTime_updatedTime_iff.mpr hc)
  | deleteEntry id => exact h.deleteEntry id
  | clear => exact h.clear
  | purge => exact h.purge

/-- In a run from the empty table every purge, whenever it comes, leaves exactly what was
written less than a life time ago if and only if every write refreshes its entry. -/
theorem purges_follow_iff_refreshes {s u : History} {tr : List (Transition History Event Unit)}
    (h : Run Step s tr u) (hs : s.Initial) :
    (∀ x ∈ tr, PurgesFollow x) ↔ ∀ x ∈ tr, Refreshes x :=
  h.forall_iff (fun _ => purgesFollow_iff) (fun _ => Current.step) hs.current

/-! ### An update that is dropped early -/

/-- The transition of a call at a time. -/
def transition (s : History) (time : Time) (call : Call) : Transition History Event Unit :=
  ⟨s, ⟨time, call⟩, (), { s with now := time }.perform call⟩

def start : History := ⟨0, {}, fun _ => none⟩

theorem start_initial : start.Initial := ⟨le_rfl, rfl, fun _ => rfl⟩

/-- An entry is added at the start. -/
def added : Transition History Event Unit :=
  transition start 0 (.addEntry (.ofOctets 192 168 1 2) ⟨1, 2, 3⟩ ⟨4, 5, 6⟩)

/-- The entry is updated three seconds later. -/
def updated : Transition History Event Unit :=
  transition added.post (Time.seconds 3) (.updateEntry (.ofOctets 192 168 1 2) ⟨2, 3, 4⟩ ⟨4, 5, 6⟩)

theorem added_refreshes : Refreshes added := fun h => absurd h (by decide)

theorem run_added : Run Step start [added] added.post := Run.single added ⟨le_rfl, rfl⟩

theorem purges_follow_iff_refreshes_added : PurgesFollow added :=
  (purges_follow_iff_refreshes run_added start_initial).mpr
    (List.forall_mem_singleton.mpr added_refreshes) added (List.mem_singleton_self added)

/-- The update does not change the time of the entry, so a purge drops it four seconds after
it was added. -/
theorem updated_dropped_early :
    ¬ ∀ (s u : History) (tr : List (Transition History Event Unit)),
      Run Step s tr u → s.Initial → ∀ x ∈ tr, PurgesFollow x := by
  intro h
  have hupdated : Step updated := ⟨by decide, rfl⟩
  have hrun : Run Step start ([added] ++ [updated]) updated.post :=
    run_added.append (Run.single updated hupdated)
  have hcurrent : added.post.Current :=
    Current.step ⟨le_rfl, rfl⟩ added_refreshes start_initial.current
  have hfollow := h _ _ _ hrun start_initial updated (by simp)
  have hrefreshes := (purgesFollow_iff hupdated hcurrent).mp hfollow
  have hentry : added.post.neighbors.table[Ipv4Address.ofOctets 192 168 1 2]? =
      some (⟨⟨1, 2, 3⟩, ⟨4, 5, 6⟩⟩, 0) :=
    (EntryTable.getElem?_addEntry ..).trans (if_pos rfl)
  have htime : (0 : Time) = Time.seconds 3 := hrefreshes _ hentry
  exact absurd htime (by decide)

end History

end NeighborTable

end SAeroRP
