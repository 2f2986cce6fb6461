import SAeroRP.Tdma.Sample

/-! A frame of the controller: the sessions from slot 0 to the event that starts the
next frame. When every slot has exactly one node, and a device is installed on every
node, a frame lets each node transmit in its slots, one stretch of slots after the
other. -/

namespace SAeroRP.TdmaController

open Library

variable {c : TdmaController}

/-! ### Frames -/

/-- `Frame c slotNum l`: the sessions `l` follow each other from the slot on, and after
the last of them the next frame starts. -/
inductive Frame (c : TdmaController) : ℕ → List Session → Prop
  | last {slotNum : ℕ} {s : Session} (h : c.scheduleTdmaSession slotNum = .ok s)
      (hnext : s.next = .startTdmaSessions) : Frame c slotNum [s]
  | more {slotNum next : ℕ} {s : Session} {l : List Session}
      (h : c.scheduleTdmaSession slotNum = .ok s) (hnext : s.next = .scheduleTdmaSession next)
      (hl : Frame c next l) : Frame c slotNum (s :: l)

/-- The first slot of a session and the number of slots. -/
def stretch (s : Session) : ℕ × ℕ := (s.slotNum, s.numOfSlotsAllotted)

/-- Every session finds its slot and ends at a slot of the frame. -/
theorem exists_frame (hc : c.Filled) {slotNum : ℕ} (hlt : slotNum < c.totalSlotsAllowed) :
    ∃ l, Frame c slotNum l := by
  induction hk : c.totalSlotsAllowed - slotNum using Nat.strong_induction_on
    generalizing slotNum with
  | h k ih =>
    obtain ⟨s, hs⟩ := exists_session_iff.mpr ((hc.isSome_iff slotNum).mpr hlt)
    obtain ⟨-, -, hstretch, -, ⟨-, hnext, -⟩ | ⟨hne, hnext, -⟩⟩ := scheduleTdmaSession_ok hs
    · exact ⟨[s], .last hs hnext⟩
    · have hle := hc.add_le hs
      have hpos := hstretch.pos
      obtain ⟨l, hl⟩ := ih (c.totalSlotsAllowed - (slotNum + s.numOfSlotsAllotted)) (by omega)
        (lt_of_le_of_ne hle hne) rfl
      exact ⟨s :: l, .more hs hnext hl⟩

namespace Frame

variable {slotNum : ℕ} {l : List Session}

/-- The sessions are the maximal stretches of slots with equal MACs, up to the last
slot. -/
theorem stretches (h : Frame c slotNum l) :
    Stretches (fun n => c.slotPtrs[n]?) slotNum (l.map stretch) c.totalSlotsAllowed := by
  induction h with
  | last h hnext =>
    obtain ⟨hnum, -, hstretch, -, ⟨hend, -, -⟩ | ⟨-, hne, -⟩⟩ := scheduleTdmaSession_ok h
    · rw [List.map_singleton, stretch, hnum]
      exact .cons hstretch (hend ▸ .nil _)
    · rw [hnext] at hne
      cases hne
  | more h hnext hl ih =>
    obtain ⟨hnum, -, hstretch, -, ⟨-, hne, -⟩ | ⟨-, hmore, -⟩⟩ := scheduleTdmaSession_ok h
    · rw [hnext] at hne
      cases hne
    · rw [hnext] at hmore
      cases hmore
      rw [List.map_cons, stretch, hnum]
      exact .cons hstretch ih

/-- Each session is the one that was scheduled for its slot. -/
theorem scheduled (h : Frame c slotNum l) :
    ∀ s ∈ l, c.scheduleTdmaSession s.slotNum = .ok s := by
  induction h with
  | last h hnext =>
    intro s hs
    obtain ⟨hnum, -⟩ := scheduleTdmaSession_ok h
    rw [List.mem_singleton.mp hs, hnum]
    exact h
  | more h hnext hl ih =>
    intro s hs
    rcases List.mem_cons.mp hs with rfl | hs
    · obtain ⟨hnum, -⟩ := scheduleTdmaSession_ok h
      rwa [hnum]
    · exact ih s hs

/-- The slots of a session have its MAC. -/
theorem mac (h : Frame c slotNum l) :
    ∀ s ∈ l, ∀ j ∈ List.range' s.slotNum s.numOfSlotsAllotted, c.slotPtrs[j]? = some s.mac := by
  intro s hs j hj
  obtain ⟨-, hmac, hstretch, -⟩ := scheduleTdmaSession_ok (h.scheduled s hs)
  rw [List.mem_range'_1] at hj
  exact (hstretch.const j hj.1 hj.2).trans hmac

/-- The slots of the frame, in order. -/
theorem slots (h : Frame c slotNum l) :
    (l.flatMap fun s => List.range' s.slotNum s.numOfSlotsAllotted) =
      List.range' slotNum (c.totalSlotsAllowed - slotNum) := by
  rw [← h.stretches.flatMap_range', List.flatMap_map]
  rfl

theorem add_sum (h : Frame c slotNum l) :
    slotNum + (l.map Session.numOfSlotsAllotted).sum = c.totalSlotsAllowed := by
  have hsum := h.stretches.add_sum
  rwa [List.map_map] at hsum

/-- A session has another MAC than the one before it. -/
theorem isChain (h : Frame c slotNum l) : l.IsChain fun s t => s.mac ≠ t.mac := by
  have hchain := (List.isChain_map stretch).mp h.stretches.isChain
  refine hchain.imp_of_mem_imp fun s t hs ht hne heq => hne ?_
  obtain ⟨-, hmac, -⟩ := scheduleTdmaSession_ok (h.scheduled s hs)
  obtain ⟨-, hmac', -⟩ := scheduleTdmaSession_ok (h.scheduled t ht)
  exact hmac.trans (heq ▸ hmac'.symm)

/-- The delays are those of the slots, a guard time for each session and the time
between frames. -/
theorem sum_delay (h : Frame c slotNum l) :
    (l.map Session.delay).sum = Time.microSeconds
      (c.slotTime * (l.map Session.numOfSlotsAllotted).sum + l.length * c.gaurdTime +
        c.tdmaInterFrameTime) := by
  induction h with
  | last h hnext =>
    obtain ⟨-, -, -, hslot, ⟨-, -, hdelay⟩ | ⟨-, hne, -⟩⟩ := scheduleTdmaSession_ok h
    · rw [List.map_singleton, List.sum_singleton, hdelay, hslot]
      simp only [getGaurdTime, getInterFrameTimeInterval, Time.microSeconds, List.map_singleton,
        List.sum_singleton, List.length_singleton]
      push_cast
      ring
    · rw [hnext] at hne
      cases hne
  | more h hnext hl ih =>
    obtain ⟨-, -, -, hslot, ⟨-, hne, -⟩ | ⟨-, -, hdelay⟩⟩ := scheduleTdmaSession_ok h
    · rw [hnext] at hne
      cases hne
    · rw [List.map_cons, List.sum_cons, ih, hdelay, hslot]
      simp only [getGaurdTime, Time.microSeconds, List.map_cons, List.sum_cons, List.length_cons]
      push_cast
      ring

end Frame

end SAeroRP.TdmaController

namespace SAeroRP.TdmaHelper

open Library TdmaController

/-! ### Tables -/

/-- The list has the node of every row, in some order. -/
def ListsAll (nodes : List UInt32) (H : TdmaHelper) : Prop :=
  nodes.Perm ((List.range H.numRows).map fun i => H.slotAllotmentArray i 0)

variable {H : TdmaHelper} {nodes : List UInt32} (created : TdmaController)

theorem Complete.owns_iff (hH : H.Complete) {i j : ℕ} (hi : i < H.numRows)
    (hone : H.slotAllotmentArray i (j + 1) = 1) (hj : j + 1 < H.numCols) (node : UInt32) :
    H.Owns node j ↔ node = H.slotAllotmentArray i 0 := by
  constructor
  · rintro ⟨-, k, hk, rfl, hone'⟩
    rw [(hH.owner (j + 1) (by omega) hj).unique ⟨hk, hone'⟩ ⟨hi, hone⟩]
  · rintro rfl
    exact ⟨hj, i, hi, rfl, hone⟩

theorem Complete.filled (hH : H.Complete) (hnodes : H.ListsAll nodes) :
    (H.assigned created nodes).Filled := by
  refine (filled_assigned_iff created nodes).mpr ⟨hH.slots, fun j hle hj => ?_⟩
  obtain ⟨i, ⟨hi, hone⟩, -⟩ := hH.owner j hle hj
  refine ⟨i, hi, hnodes.mem_iff.mpr ?_, hone⟩
  exact List.mem_map.mpr ⟨i, List.mem_range.mpr hi, rfl⟩

theorem Complete.nodup (hH : H.Complete) (hnodes : H.ListsAll nodes) : nodes.Nodup := by
  rw [hnodes.nodup_iff]
  refine List.Nodup.map_on (fun i hi k hk => ?_) List.nodup_range
  exact hH.ids i (List.mem_range.mp hi) k (List.mem_range.mp hk)

/-- A slot has the MAC of the device on its node, whatever the order of the nodes. -/
theorem Complete.slotPtrs (hH : H.Complete) (hnodes : H.ListsAll nodes) {i j : ℕ} {mac : MacPtr}
    (hi : i < H.numRows) (hone : H.slotAllotmentArray i (j + 1) = 1) (hj : j + 1 < H.numCols)
    (hd : (H.slotAllotmentArray i 0, mac) ∈ nodes.zipIdx H.devices.length) :
    (H.assigned created nodes).slotPtrs[j]? = some mac := by
  refine slotPtrs_assigned_of_unique created hd ((hH.owns_iff hi hone hj _).mpr rfl) ?_
  intro d hd' hown
  have hnode := (hH.owns_iff hi hone hj _).mp hown
  have hdistinct : ((nodes.zipIdx H.devices.length).map Prod.fst).Nodup := by
    rw [List.zipIdx_map_fst]
    exact hH.nodup hnodes
  exact List.inj_on_of_nodup_map hdistinct hd' hd hnode

/-! ### The frame -/

/-- Whatever the order in which devices are installed on the nodes of a table with one
node for every slot: each slot has the MAC of the device on its node, and a frame goes
through the slots in order, once each, in maximal stretches of slots of equal MACs. -/
theorem frame_serves_every_slot (H : TdmaHelper) (hH : H.Complete) (hnew : H.devices = [])
    (created : TdmaController) (nodes : List UInt32) (hnodes : H.ListsAll nodes) :
    ∃ H' c, (H.setTdmaControllerHelper created).install nodes = .ok H' ∧ H'.controller = some c ∧
      H'.devices.map Prod.fst = nodes ∧
      (∀ j, c.slotPtrs[j]?.isSome ↔ j + 1 < H.numCols) ∧
      (∀ i < H.numRows, ∀ j, j + 1 < H.numCols → H.slotAllotmentArray i (j + 1) = 1 →
        ∀ mac, (H.slotAllotmentArray i 0, mac) ∈ H'.devices → c.slotPtrs[j]? = some mac) ∧
      (∃ l, c.Frame 0 l) ∧
      ∀ l, c.Frame 0 l →
        (l.flatMap fun s => List.range' s.slotNum s.numOfSlotsAllotted) =
          List.range (H.numCols - 1) ∧
        (∀ s ∈ l, ∀ j ∈ List.range' s.slotNum s.numOfSlotsAllotted,
          c.slotPtrs[j]? = some s.mac) ∧
        (l.IsChain fun s t => s.mac ≠ t.mac) ∧
        (l.map Session.delay).sum = Time.microSeconds
          ((H.numCols - 1 : ℕ) * created.slotTime + l.length * created.gaurdTime +
            created.tdmaInterFrameTime) := by
  have hfilled := hH.filled created hnodes
  have htotal := totalSlotsAllowed_assigned (H := H) created nodes
  have hinstall := install_setTdmaControllerHelper created nodes H
  rw [if_pos (by simp [hH.accepts])] at hinstall
  refine ⟨_, H.assigned created nodes, hinstall, rfl, ?_, fun j => ?_, ?_, ?_, fun l hl => ?_⟩
  · simp only [hnew, List.nil_append, List.zipIdx_map_fst]
  · have hslots := hH.slots
    rw [hfilled.isSome_iff, htotal]
    omega
  · intro i hi j hj hone mac hd
    rw [hnew, List.nil_append] at hd
    exact hH.slotPtrs created hnodes hi hone hj (by rwa [hnew])
  · exact exists_frame hfilled hfilled.pos
  · have hslots := hl.slots
    have hsum := hl.add_sum
    have hdelay := hl.sum_delay
    rw [htotal] at hslots hsum
    rw [Nat.zero_add] at hsum
    rw [hsum] at hdelay
    refine ⟨?_, hl.mac, hl.isChain, ?_⟩
    · rw [hslots, Nat.sub_zero, List.range_eq_range']
    · obtain ⟨hslot, hgaurd, hinter⟩ := times_assigned (H := H) created nodes
      rw [hdelay, hslot, hgaurd, hinter, mul_comm (created.slotTime : ℤ)]

/-- The documented table, with the nodes in another order. -/
theorem frame_serves_every_slot_sample :
    ∃ H' c, (Sample.slotTable.setTdmaControllerHelper Sample.controller).install [2, 0, 3, 1] =
        .ok H' ∧ H'.controller = some c ∧
      ∃ l, c.Frame 0 l ∧
        (l.flatMap fun s => List.range' s.slotNum s.numOfSlotsAllotted) = [0, 1, 2, 3, 4] := by
  obtain ⟨H', c, hinstall, hc, -, -, -, ⟨l, hl⟩, hframe⟩ := frame_serves_every_slot Sample.slotTable
    Sample.slotTable_complete rfl Sample.controller [2, 0, 3, 1] (show List.Perm _ _ by decide)
  exact ⟨H', c, hinstall, hc, l, hl, (hframe l hl).1⟩

end SAeroRP.TdmaHelper
