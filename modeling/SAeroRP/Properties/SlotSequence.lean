import SAeroRP.Properties.SlotFiles
import SAeroRP.Properties.Timetable
import SAeroRP.Tdma.GivenSlots

/-! From the slot file to the channel. The grants of a run, cut into slots, are the columns of the
table over and over: the node of the first slot, the node of the second, and from the last slot
on to the first one again. -/

namespace SAeroRP

open Library

/-! ### The slots of a frame -/

namespace TdmaController.Frame

variable {c : TdmaController} {slotNum : ℕ} {l : List Session}

/-- The first slot of a session is behind the slots of those before it. -/
theorem slotNum_eq (h : Frame c slotNum l) {i : ℕ} {r : Session} (hr : l[i]? = some r) :
    r.slotNum = slotNum + ((l.map Session.numOfSlotsAllotted).take i).sum := by
  induction h generalizing i with
  | last h =>
    obtain ⟨hnum, -⟩ := scheduleTdmaSession_ok h
    cases i with
    | zero =>
      cases hr
      simp [hnum]
    | succ i => cases hr
  | @more slotNum next s l h hnext hl ih =>
    obtain ⟨hnum, -, -, -, ⟨-, hne, -⟩ | ⟨-, hmore, -⟩⟩ := scheduleTdmaSession_ok h
    · rw [hnext] at hne
      cases hne
    · rw [hnext] at hmore
      obtain rfl := SessionEvent.scheduleTdmaSession.inj hmore
      cases i with
      | zero =>
        cases hr
        simp [hnum]
      | succ i =>
        rw [ih hr, List.map_cons, List.take_succ_cons, List.sum_cons, Nat.add_assoc]

theorem sum_slots (h : Frame c 0 l) :
    (l.map Session.numOfSlotsAllotted).sum = c.totalSlotsAllowed := by
  have hsum := h.add_sum
  rwa [Nat.zero_add] at hsum

end TdmaController.Frame

namespace Tdma

variable {c : TdmaController} {change : Time → TdmaMacQueue → TdmaMacQueue → Prop}
  {l : List Session} {t₀ : Time} {s t u : Tdma} {tr : List (Transition Tdma Event (List Frame))}

/-- The number of slots of the first `k` sessions. -/
def slotsBefore (l : List Session) (k : ℕ) : ℕ := offset (l.map Session.numOfSlotsAllotted) k

/-- The slots of a session, in the order of all slots of all frames. -/
theorem slots_of_session (hl : c.Frame 0 l) {k : ℕ} {r : Session} (hr : l[k % l.length]? = some r) :
    slotsBefore l (k + 1) = slotsBefore l k + r.numOfSlotsAllotted ∧
      ∀ i < r.numOfSlotsAllotted,
        c.slotPtrs[(slotsBefore l k + i) % c.totalSlotsAllowed]? = some r.mac := by
  have hgap : (l.map Session.numOfSlotsAllotted)[k % (l.map Session.numOfSlotsAllotted).length]? =
      some r.numOfSlotsAllotted := by
    rw [List.length_map, List.getElem?_map, hr]
    rfl
  refine ⟨offset_succ hgap, fun i hi => ?_⟩
  have hmem := List.mem_of_getElem? hr
  have hmac := hl.mac r hmem (r.slotNum + i) (List.mem_range'_1.mpr ⟨Nat.le_add_right _ _, by omega⟩)
  have hnum := hl.slotNum_eq hr
  have hlt : r.slotNum + i < c.totalSlotsAllowed := by
    have hslot : r.slotNum + i ∈ l.flatMap fun r => List.range' r.slotNum r.numOfSlotsAllotted :=
      List.mem_flatMap.mpr ⟨r, hmem, List.mem_range'_1.mpr ⟨Nat.le_add_right _ _, by omega⟩⟩
    rw [hl.slots, List.mem_range'_1] at hslot
    omega
  have hmod : (slotsBefore l k + i) % c.totalSlotsAllowed = r.slotNum + i := by
    rw [slotsBefore, offset, List.length_map, hl.sum_slots, nsmul_eq_mul, Nat.cast_id, Nat.add_assoc, hnum,
      Nat.zero_add, Nat.mul_add_mod_self_right]
    rw [hnum, Nat.zero_add] at hlt
    exact Nat.mod_eq_of_lt hlt
  rw [hmod]
  exact hmac

/-- The MAC of a grant once for each of its slots. -/
def slotsOf (c : TdmaController) (g : Grant) : List MacPtr :=
  List.replicate ((g.stop - g.start) / c.getSlotTime).toNat g.mac

theorem slotsOf_eq (hpos : 0 < c.slotTime) {slotNum : ℕ} {r : Session}
    (h : c.scheduleTdmaSession slotNum = .ok r) (start : Time) :
    slotsOf c ⟨r.mac, start, start + r.transmissionSlot⟩ =
      List.replicate r.numOfSlotsAllotted r.mac := by
  obtain ⟨-, -, -, hslot, -⟩ := TdmaController.scheduleTdmaSession_ok h
  have hne : c.getSlotTime ≠ 0 := by
    unfold TdmaController.getSlotTime Time.microSeconds
    positivity
  have htime : Time.microSeconds (c.slotTime * r.numOfSlotsAllotted) =
      r.numOfSlotsAllotted * c.getSlotTime := by
    unfold TdmaController.getSlotTime Time.microSeconds
    ring
  rw [slotsOf, add_sub_cancel_left, hslot, htime, Int.mul_ediv_cancel _ hne, Int.toNat_natCast]

/-- The slots of the first grants of the timetable. -/
theorem slots_of_prefix (hpos : 0 < c.slotTime) (hl : c.Frame 0 l) {granted : List Grant}
    (h : ∀ k < granted.length, granted[k]? = timetable l t₀ k) :
    (granted.flatMap (slotsOf c)).map some =
      (List.range (slotsBefore l granted.length)).map fun k =>
        c.slotPtrs[k % c.totalSlotsAllowed]? := by
  induction granted using List.reverseRecOn with
  | nil => simp [slotsBefore]
  | append_singleton granted g ih =>
    rw [List.length_append, List.length_singleton] at h ⊢
    have hold := ih fun k hk => by
      rw [← h k (Nat.lt_succ_of_lt hk), List.getElem?_append_left hk]
    have hlast := h granted.length (Nat.lt_succ_self _)
    rw [List.getElem?_append_right le_rfl, Nat.sub_self, timetable] at hlast
    obtain ⟨r, hr, hg⟩ := Option.map_eq_some_iff.mp hlast.symm
    obtain ⟨hcount, hslots⟩ := slots_of_session hl hr
    rw [List.flatMap_append, List.map_append, hold, List.flatMap_singleton, ← hg,
      slotsOf_eq hpos (hl.scheduled r (List.mem_of_getElem? hr)), hcount, List.range_add,
      List.map_append, List.map_map, List.map_replicate]
    congr 1
    refine (List.eq_replicate_iff.mpr ⟨by simp, fun a ha => ?_⟩).symm
    obtain ⟨i, hi, rfl⟩ := List.mem_map.mp ha
    exact hslots i (List.mem_range.mp hi)

/-- What starts the controller is the first start. -/
theorem Does.start_or_inactive {e : Event} {frames : List Frame} (h : Does c change s e t frames)
    (hs : s.activeEpoch = false) : t = s.start ∨ t.activeEpoch = false := by
  cases h with
  | start => exact .inl rfl
  | advance | session | sendPacketDown | change => exact .inr hs

/-- The controller was not started, or the run is on a timetable. -/
structure Timetabled (c : TdmaController) (l : List Session) (s : Tdma) : Prop where
  exclusive : Exclusive c s
  timetable : s.activeEpoch = true → ∃ t₀, OnTimetable l t₀ s

theorem timetabled_step (hc : c.Filled) (hl : c.Frame 0 l) {e : Event} {frames : List Frame}
    (h : Does c change s e t frames) (hs : Timetabled c l s) : Timetabled c l t := by
  refine ⟨exclusive_step hc h hs.exclusive, fun hactive => ?_⟩
  cases hidle : s.activeEpoch with
  | true =>
    obtain ⟨t₀, ht₀⟩ := hs.timetable hidle
    exact ⟨t₀, onTimetable_step hl h ht₀⟩
  | false =>
    rcases h.start_or_inactive hidle with rfl | hinactive
    · exact ⟨_, onTimetable_start hl hs.exclusive hidle⟩
    · rw [hinactive] at hactive
      cases hactive

/-- The slots of all grants of a run are those of the controller, over and over. -/
theorem slots_run (hc : c.Filled) (hpos : 0 < c.slotTime) (hrun : Run (Step c change) s tr u)
    (hs : s.Idle) : ∃ m, (u.granted.flatMap (slotsOf c)).map some =
      (List.range m).map fun k => c.slotPtrs[k % c.totalSlotsAllowed]? := by
  obtain ⟨l, hl⟩ := TdmaController.exists_frame hc hc.pos
  have hinit : Timetabled c l s :=
    ⟨hs.exclusive, fun h => absurd h (by rw [hs.activeEpoch]; decide)⟩
  have hu := (hrun.invariant (fun _ hx => timetabled_step hc hl hx) hinit).1
  cases hidle : u.activeEpoch with
  | true =>
    obtain ⟨t₀, ht₀⟩ := hu.timetable hidle
    exact ⟨_, slots_of_prefix hpos hl ht₀.granted⟩
  | false =>
    obtain ⟨-, -, hgranted⟩ := hu.exclusive.idle hidle
    exact ⟨0, by rw [hgranted]; rfl⟩

end Tdma

/-! ### The table -/

namespace TdmaHelper

open Tdma

variable {H : TdmaHelper} {nodes : List UInt32}

/-- The node of the row that has a 1 for the slot. -/
def owner (H : TdmaHelper) (slot : ℕ) : Option UInt32 :=
  ((List.range H.numRows).find? fun i => H.slotAllotmentArray i (slot + 1) = 1).map
    fun i => H.slotAllotmentArray i 0

theorem owner_eq_some {i slot : ℕ} (hi : i < H.numRows)
    (hone : H.slotAllotmentArray i (slot + 1) = 1)
    (hunique : ∀ k, k < H.numRows ∧ H.slotAllotmentArray k (slot + 1) = 1 → k = i) :
    H.owner slot = some (H.slotAllotmentArray i 0) := by
  have hfind : ((List.range H.numRows).find? fun k => H.slotAllotmentArray k (slot + 1) = 1) =
      some i := by
    rw [List.find?_range_eq_some]
    refine ⟨decide_eq_true hone, List.mem_range.mpr hi, fun k hk => ?_⟩
    simp only [Bool.not_eq_true', decide_eq_false_iff_not]
    exact fun hone' => hk.ne (hunique k ⟨hk.trans hi, hone'⟩)
  rw [owner, hfind, Option.map_some]

/-- In every run the slots of all grants are the nodes of the columns, over and over. -/
def Follows (H : TdmaHelper) (nodes : List UInt32) (c : TdmaController) : Prop :=
  ∀ change s tr u, s.Idle → Run (Step c change) s tr u →
    ∃ m, (u.granted.flatMap (slotsOf c)).map (nodes[·]?) =
      (List.range m).map fun k => H.owner (k % (H.numCols - 1))

/-- A slot of a complete table has the MAC of the device on its node. -/
theorem Complete.slotPtrs_eq_owner (hH : H.Complete) (hnodes : H.ListsAll nodes)
    (hnew : H.devices = []) (created : TdmaController) {slot : ℕ} (hslot : slot + 1 < H.numCols) :
    ((H.assigned created nodes).slotPtrs[slot]?.bind (nodes[·]?)) = H.owner slot := by
  obtain ⟨i, ⟨hi, hone⟩, hunique⟩ := hH.owner (slot + 1) (Nat.succ_pos slot) hslot
  have hmem : H.slotAllotmentArray i 0 ∈ nodes :=
    hnodes.mem_iff.mpr (List.mem_map.mpr ⟨i, List.mem_range.mpr hi, rfl⟩)
  obtain ⟨mac, hmac, hget⟩ := List.getElem_of_mem hmem
  have hget? : nodes[mac]? = some (H.slotAllotmentArray i 0) := by
    rw [List.getElem?_eq_getElem hmac, hget]
  have hdevice : (H.slotAllotmentArray i 0, mac) ∈ nodes.zipIdx H.devices.length := by
    rw [hnew, List.length_nil, List.mem_zipIdx_iff_getElem?]
    exact hget?
  rw [hH.slotPtrs created hnodes hi hone hslot hdevice, Option.bind_some, hget?,
    owner_eq_some hi hone hunique]

/-- The device's controller follows a complete table. -/
theorem Complete.follows (hH : H.Complete) (hnodes : H.ListsAll nodes) (hnew : H.devices = [])
    {created : TdmaController} (hpos : 0 < created.slotTime) :
    H.Follows nodes (H.assigned created nodes) := by
  intro change s tr u hs hrun
  have hfilled := hH.filled created hnodes
  obtain ⟨hslot, -⟩ := times_assigned (H := H) created nodes
  obtain ⟨m, hm⟩ := slots_run hfilled (by rwa [hslot]) hrun hs
  have hmap := congrArg (List.map fun mac => mac.bind (nodes[·]?)) hm
  rw [List.map_map, List.map_map, totalSlotsAllowed_assigned] at hmap
  refine ⟨m, hmap.trans (List.map_congr_left fun k _ => ?_)⟩
  have hslots := hH.slots
  have hmod := Nat.mod_lt k (show 0 < H.numCols - 1 by omega)
  exact hH.slotPtrs_eq_owner hnodes hnew created (by omega)

end TdmaHelper

/-! ### Slot files -/

namespace TdmaSlotAssignmentFileParser.SlotMatrix

open TdmaHelper

variable {M : SlotMatrix}

/-- Row `i` has the slot. -/
def Has (M : SlotMatrix) (i slot : ℕ) : Prop :=
  ∃ r, M.rows[i]? = some r ∧ r.slots.toList[slot]? = some true

/-- Ids are distinct, and every slot has exactly one row. -/
structure Exact (M : SlotMatrix) : Prop where
  ids : (M.rows.map MatrixRow.nodeId).Nodup
  owner : ∀ slot < M.numSlots, ∃! i, M.Has i slot

/-- The id of the first row that has the slot. -/
def owner (M : SlotMatrix) (slot : ℕ) : Option UInt32 :=
  (M.rows.find? fun r => r.slots.toList[slot]? = some true).map fun r => UInt32.ofNat r.nodeId

/-- The ids of all rows. -/
def ids (M : SlotMatrix) : List UInt32 := M.rows.map fun r => UInt32.ofNat r.nodeId

/-- The table that is written from the file, in what was allocated for it. -/
def table (M : SlotMatrix) (memory : ℕ → ℕ → UInt32) : TdmaHelper :=
  let H : TdmaHelper :=
    { slotAllotmentArray := memory, numRows := M.rows.length, numCols := M.numSlots + 1 }
  H.allocated.written (valueOf (M.rows.map MatrixRow.values)) H.numRows

theorem length_values {m : ℕ} (r : MatrixRow m) : r.values.length = m + 1 := by
  rw [MatrixRow.values, List.length_cons, List.length_map, r.slots.toList_length]

theorem createFromFile_text (memory : ℕ → ℕ → UInt32) (final : Bool)
    (hsize : M.rows.length * M.numSlots < 4294967296) (hslots : M.numSlots + 1 < 4294967296) :
    createFromFile memory (some (M.text final)) = .ok (M.table memory) := by
  have htrips : M.RoundTrips final := roundTrips_of_lt hsize
  obtain ⟨p, hparse, hcount, htotal, harrays⟩ := htrips
  have hcols : (p.getTotalSlots + 1).toNat = M.numSlots + 1 := by
    rw [UInt32.toNat_add, htotal, UInt32.toNat_one]
    omega
  let H : TdmaHelper :=
    { slotAllotmentArray := memory, numRows := M.rows.length, numCols := M.numSlots + 1 }
  have hcovers : Covers (M.rows.map MatrixRow.values) H.allocated := by
    refine ⟨Nat.succ_pos _, (List.length_map _).ge, fun row hrow => ?_⟩
    obtain ⟨r, -, rfl⟩ := List.mem_map.mp hrow
    exact (length_values r).ge
  rw [createFromFile, hparse, ok_bind]
  simp only [hcount, hcols, harrays]
  rw [allocate2D_eq (H := H) (Nat.succ_pos _), ok_bind, setSlots_eq hcovers]
  rfl

section
variable {memory : ℕ → ℕ → UInt32} {i slot : ℕ} {r : MatrixRow M.numSlots}

theorem entry_table (hr : M.rows[i]? = some r) {j : ℕ} (hj : j < M.numSlots + 1) :
    (M.table memory).slotAllotmentArray i j = r.values.getD j 0 := by
  obtain ⟨hi, -⟩ := List.getElem?_eq_some_iff.mp hr
  have hvalue : valueOf (M.rows.map MatrixRow.values) i j = r.values.getD j 0 := by
    rw [valueOf, List.getD_eq_getElem?_getD (l := M.rows.map MatrixRow.values), List.getElem?_map, hr]
    rfl
  rw [← hvalue]
  exact if_pos ⟨hi, hj⟩

theorem id_table (hr : M.rows[i]? = some r) :
    (M.table memory).slotAllotmentArray i 0 = UInt32.ofNat r.nodeId :=
  entry_table hr (Nat.succ_pos _)

theorem slot_table (hr : M.rows[i]? = some r) (hslot : slot < M.numSlots) :
    (M.table memory).slotAllotmentArray i (slot + 1) =
      if r.slots.toList[slot]? = some true then 1 else 0 := by
  rw [entry_table hr (Nat.succ_lt_succ hslot), MatrixRow.values, List.getD_cons_succ,
    List.getD_eq_getElem?_getD, List.getElem?_map]
  have hlt : slot < r.slots.toList.length := by rwa [r.slots.toList_length]
  rw [List.getElem?_eq_getElem hlt]
  cases r.slots.toList[slot] <;> rfl

theorem slot_table_eq_one (hr : M.rows[i]? = some r) (hslot : slot < M.numSlots) :
    (M.table memory).slotAllotmentArray i (slot + 1) = 1 ↔ r.slots.toList[slot]? = some true := by
  rw [slot_table hr hslot]
  split_ifs with h <;> simp [h]

theorem has_iff (hi : i < M.rows.length) (hslot : slot < M.numSlots) :
    M.Has i slot ↔ (M.table memory).slotAllotmentArray i (slot + 1) = 1 := by
  have hr := List.getElem?_eq_getElem hi
  rw [slot_table_eq_one hr hslot, Has, hr]
  simp

theorem Exact.complete (hM : M.Exact) (memory : ℕ → ℕ → UInt32) : (M.table memory).Complete where
  slots := Nat.succ_le_succ M.slots_pos
  ids := fun i (hi : i < M.rows.length) k (hk : k < M.rows.length) heq => by
    rw [id_table (List.getElem?_eq_getElem hi), id_table (List.getElem?_eq_getElem hk)] at heq
    have hnat := congrArg UInt32.toNat heq
    have hilt := M.rows[i].nodeId_lt
    have hklt := M.rows[k].nodeId_lt
    rw [UInt32.toNat_ofNat_of_lt' (by simp only [UInt32.size]; omega),
      UInt32.toNat_ofNat_of_lt' (by simp only [UInt32.size]; omega)] at hnat
    have hiM : i < (M.rows.map MatrixRow.nodeId).length := by simpa using hi
    have hkM : k < (M.rows.map MatrixRow.nodeId).length := by simpa using hk
    have hsame : (M.rows.map MatrixRow.nodeId)[i] = (M.rows.map MatrixRow.nodeId)[k] := by
      simpa using hnat
    exact hM.ids.getElem_inj_iff.mp hsame
  entries := fun i (hi : i < M.rows.length) j hle (hj : j < M.numSlots + 1) => by
    obtain ⟨slot, rfl⟩ := Nat.exists_eq_succ_of_ne_zero (Nat.one_le_iff_ne_zero.mp hle)
    rw [Nat.succ_eq_add_one, slot_table (List.getElem?_eq_getElem hi) (Nat.lt_of_succ_lt_succ hj)]
    split_ifs
    · exact .inr rfl
    · exact .inl rfl
  owner := fun j hle (hj : j < M.numSlots + 1) => by
    obtain ⟨slot, rfl⟩ := Nat.exists_eq_succ_of_ne_zero (Nat.one_le_iff_ne_zero.mp hle)
    have hslot : slot < M.numSlots := Nat.lt_of_succ_lt_succ hj
    obtain ⟨i, hhas, hunique⟩ := hM.owner slot hslot
    have hi : i < M.rows.length := by
      obtain ⟨r, hr, -⟩ := hhas
      exact (List.getElem?_eq_some_iff.mp hr).1
    refine ⟨i, ⟨hi, (has_iff hi hslot).mp hhas⟩, fun k hk => ?_⟩
    exact hunique k ((has_iff hk.1 hslot).mpr hk.2)

theorem listsAll_table (memory : ℕ → ℕ → UInt32) {nodes : List UInt32} (hnodes : nodes.Perm M.ids) :
    (M.table memory).ListsAll nodes := by
  have hids : M.ids = (List.range M.rows.length).map fun i =>
      (M.table memory).slotAllotmentArray i 0 := by
    refine List.ext_getElem (by simp [ids]) fun i hi _ => ?_
    have hrow : i < M.rows.length := by simpa [ids] using hi
    rw [List.getElem_map, List.getElem_range, id_table (List.getElem?_eq_getElem hrow)]
    simp [ids]
  exact hnodes.trans (List.Perm.of_eq hids)

theorem Exact.owner_table (hM : M.Exact) (memory : ℕ → ℕ → UInt32) (hslot : slot < M.numSlots) :
    (M.table memory).owner slot = M.owner slot := by
  obtain ⟨i, ⟨r, hr, hone⟩, hunique⟩ := hM.owner slot hslot
  obtain ⟨hi, hget⟩ := List.getElem?_eq_some_iff.mp hr
  have hrows : (M.rows.find? fun r => r.slots.toList[slot]? = some true) = some r := by
    rw [List.find?_eq_some_iff_getElem]
    refine ⟨decide_eq_true hone, i, hi, hget, fun k hk => ?_⟩
    simp only [Bool.not_eq_true', decide_eq_false_iff_not]
    exact fun hone' => hk.ne (hunique k ⟨_, List.getElem?_eq_getElem (hk.trans hi), hone'⟩)
  have htable := owner_eq_some (H := M.table memory) hi ((slot_table_eq_one hr hslot).mpr hone)
    fun k hk => hunique k ((has_iff hk.1 hslot).mpr hk.2)
  rw [htable, id_table hr, SlotMatrix.owner, hrows, Option.map_some]

end

/-- A helper that is made from the file of an exact matrix installs its devices, whatever the
order of the nodes, and in every run the slots of the grants are the columns of the file, over
and over. -/
theorem slot_file_followed (M : SlotMatrix) (final : Bool) (hM : M.Exact)
    (hsize : M.rows.length * M.numSlots < 4294967296) (hslots : M.numSlots + 1 < 4294967296)
    (memory : ℕ → ℕ → UInt32) (created : TdmaController) (hpos : 0 < created.slotTime)
    (nodes : List UInt32) (hnodes : nodes.Perm M.ids) :
    ∃ H H' c, createFromFile memory (some (M.text final)) = .ok H ∧
      (H.setTdmaControllerHelper created).install nodes = .ok H' ∧ H'.controller = some c ∧
      ∀ change s tr u, s.Idle → Library.Run (Tdma.Step c change) s tr u →
        ∃ m, (u.granted.flatMap (Tdma.slotsOf c)).map (nodes[·]?) =
          (List.range m).map fun k => M.owner (k % M.numSlots) := by
  have hcomplete := hM.complete memory
  have hlists := listsAll_table memory hnodes
  have hinstall := install_setTdmaControllerHelper created nodes (M.table memory)
  rw [if_pos (by simp [hcomplete.accepts])] at hinstall
  refine ⟨_, _, _, createFromFile_text memory final hsize hslots, hinstall, rfl, ?_⟩
  intro change s tr u hs hrun
  obtain ⟨m, hm⟩ := hcomplete.follows hlists rfl hpos change s tr u hs hrun
  refine ⟨m, hm.trans (List.map_congr_left fun k _ => ?_)⟩
  exact hM.owner_table memory (Nat.mod_lt k M.slots_pos)

/-- A file of two nodes and three slots; the second node has the first slot and the last. -/
def twoNodes : SlotMatrix where
  numSlots := 3
  rows := [⟨4, ⟨[false, true, false], rfl⟩, by decide⟩, ⟨7, ⟨[true, false, true], rfl⟩, by decide⟩]
  slots_pos := by decide
  rows_ne := List.cons_ne_nil _ _

theorem twoNodes_exact : twoNodes.Exact := by
  refine ⟨by decide, fun slot hslot => ?_⟩
  have hhas : ∀ i slot, twoNodes.Has i slot ↔
      (twoNodes.rows[i]?.bind fun r => r.slots.toList[slot]?) = some true := fun i slot => by
    rw [Option.bind_eq_some_iff]
    rfl
  have howner : ∀ slot < 3, ∃ i < 2, (twoNodes.rows[i]?.bind fun r => r.slots.toList[slot]?) =
      some true ∧ ∀ k < 2, (twoNodes.rows[k]?.bind fun r => r.slots.toList[slot]?) = some true →
        k = i := by decide
  obtain ⟨i, -, hone, hunique⟩ := howner slot hslot
  refine ⟨i, (hhas i slot).mpr hone, fun k hk => hunique k ?_ ((hhas k slot).mp hk)⟩
  obtain ⟨r, hr, -⟩ := hk
  exact (List.getElem?_eq_some_iff.mp hr).1

/-- The nodes of the slots are 7, 4 and 7, also when node 7 is installed first. -/
theorem slot_file_followed_sample : twoNodes.text true = "4:0,1,0\n7:1,0,1\n".toList ∧
    ∃ H H' c, createFromFile (fun _ _ => 9) (some (twoNodes.text true)) = .ok H ∧
      (H.setTdmaControllerHelper Sample.controller).install [7, 4] = .ok H' ∧
      H'.controller = some c ∧
      ∀ change s tr u, s.Idle → Library.Run (Tdma.Step c change) s tr u →
        ∃ m, (u.granted.flatMap (Tdma.slotsOf c)).map (([7, 4] : List UInt32)[·]?) =
          (List.range m).map fun k => twoNodes.owner (k % 3) :=
  ⟨by decide, slot_file_followed twoNodes true twoNodes_exact (by decide) (by decide) _
    Sample.controller (by decide) [7, 4] (by decide)⟩

example : (List.range 3).map twoNodes.owner = [some 7, some 4, some 7] := by decide

end TdmaSlotAssignmentFileParser.SlotMatrix

end SAeroRP
