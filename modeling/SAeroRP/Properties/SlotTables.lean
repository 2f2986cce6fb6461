import SAeroRP.Properties.SlotExclusivity

/-! Slots without a MAC. AssignTdmaSlots checks that no slot has two nodes; it does not
check that every slot has one. ScheduleTdmaSession warns of a slot that is not in its
map and then uses what it did not find. -/

namespace SAeroRP.Tdma

open Library TdmaCentralMac TdmaController

/-- The session events that are due find their slots. -/
def SlotsFound (c : TdmaController) (s : Tdma) : Prop :=
  ∀ p ∈ s.sessions, p.1 = s.now → ∃ r, c.scheduleTdmaSession p.2.slotNum = .ok r

variable {c : TdmaController} {change : Time → TdmaMacQueue → TdmaMacQueue → Prop}
  {s t u : Tdma} {tr : List (Transition Tdma Event (List Frame))}

/-! ### A missing slot -/

/-- One session event is pending, and there is nothing to send. -/
structure Silent (s : Tdma) (p : Time × SessionEvent) : Prop where
  sessions : s.sessions = [p]
  later : s.now ≤ p.1
  sends : s.sends = []
  queues : ∀ mac, (s.queues mac).queue = []

/-- Time passes until the session is due. -/
theorem Silent.wait {p : Time × SessionEvent} (hs : Silent s p) :
    Does c change s (.advance (p.1 - s.now)) { s with now := p.1 } [] := by
  have hlater := hs.later
  have hnow : s.now + (p.1 - s.now) = p.1 := by ring
  have hdoes : Does c change s (.advance (p.1 - s.now))
      { s with now := s.now + (p.1 - s.now) } [] := by
    refine .advance (by linarith) (fun q hq => ?_) (fun d hd => ?_)
    · rw [hs.sessions] at hq
      rw [List.mem_singleton.mp hq, hnow]
    · rw [hs.sends] at hd
      cases hd
  rwa [hnow] at hdoes

variable (change) in
/-- The session of a slot that has a MAC. -/
theorem Silent.session {p : Time × SessionEvent} {r : Session} (hs : Silent s p)
    (h : c.scheduleTdmaSession p.2.slotNum = .ok r) :
    ∃ tr t, Run (Step c change) s tr t ∧ Silent t (p.1 + r.delay, r.next) := by
  have hdelay := le_delay h
  have hslot := transmissionSlot_nonneg h
  have hguard := c.getGaurdTime_nonneg
  have hp : p ∈ s.sessions := by
    rw [hs.sessions]
    exact List.mem_singleton_self p
  have hdoes : Does c change { s with now := p.1 } (.session p) _ [] :=
    .session hp rfl h (startTransmission_of_empty (hs.queues r.mac))
  rw [Function.update_eq_self] at hdoes
  refine ⟨_, _, .cons (x := ⟨_, _, _, _⟩) rfl hs.wait (.single ⟨_, _, _, _⟩ hdoes), ?_⟩
  refine ⟨by simp [hs.sessions], ?_, by simp [hs.sends], hs.queues⟩
  simp only
  linarith

variable (change) in
/-- The sessions before the first slot that has no MAC lead to that slot. -/
theorem Silent.reaches {b : ℕ} (hb : ∀ m < b, c.slotPtrs[m]?.isSome) (hnone : c.slotPtrs[b]? = none)
    (hend : ∀ m ≤ b, 0 < m → m ≠ c.totalSlotsAllowed) {p : Time × SessionEvent}
    (hs : Silent s p) (hp : p.2.slotNum ≤ b) :
    ∃ tr t q, Run (Step c change) s tr t ∧ Silent t q ∧ q.2.slotNum = b := by
  induction hk : b - p.2.slotNum using Nat.strong_induction_on generalizing s p with
  | h k ih =>
    rcases hp.eq_or_lt with heq | hlt
    · exact ⟨[], s, p, .nil s, hs, heq⟩
    · obtain ⟨r, hr⟩ := exists_session_iff.mpr (hb _ hlt)
      obtain ⟨-, -, hstretch, -, hnext⟩ := scheduleTdmaSession_ok hr
      have hpos := hstretch.pos
      have hle := hstretch.add_le hlt fun m hm heq => by
        have hsome := hb m hm
        rw [heq, hnone] at hsome
        cases hsome
      obtain ⟨hlast, -⟩ | ⟨-, hnext, -⟩ := hnext
      · exact absurd hlast (hend _ hle (by omega))
      · obtain ⟨tr, t, hrun, ht⟩ := hs.session change hr
        obtain ⟨tr', u, q, hrun', hu, hq⟩ := ih (b - (p.2.slotNum + r.numOfSlotsAllotted)) (by omega)
          ht (by rw [hnext]; exact hle) (by rw [hnext]; rfl)
        exact ⟨tr ++ tr', u, q, hrun.append hrun', hu, hq⟩

/-- Nothing has been started and there is nothing to send. -/
def still : Tdma where
  now := 0
  queues _ := {}

theorem still_idle : still.Idle := ⟨rfl, rfl, rfl, rfl⟩

variable (change) in
/-- A missing slot is come to, and not found. -/
theorem not_found_of_missing {b : ℕ} (hb : ∀ m < b, c.slotPtrs[m]?.isSome)
    (hnone : c.slotPtrs[b]? = none) (hend : ∀ m ≤ b, 0 < m → m ≠ c.totalSlotsAllowed) :
    ∃ tr u, Run (Step c change) still tr u ∧ ¬ SlotsFound c u := by
  have hstart : Does c change still .start still.start [] := .start
  have hs : Silent still.start (10, .startTdmaSessions) :=
    ⟨rfl, by decide, rfl, fun _ => rfl⟩
  obtain ⟨tr, t, q, hrun, ht, hq⟩ := hs.reaches change hb hnone hend (Nat.zero_le b)
  refine ⟨_, _, .cons (x := ⟨_, _, _, _⟩) rfl hstart (hrun.append (.single ⟨_, _, _, _⟩ ht.wait)),
    fun hfound => ?_⟩
  obtain ⟨r, hr⟩ := hfound q (by simp [ht.sessions]) rfl
  have hsome := exists_session_iff.mp ⟨r, hr⟩
  rw [hq, hnone] at hsome
  cases hsome

/-! ### Tables -/

variable (change) in
/-- A controller whose slots are not all filled comes to a slot it does not find. -/
theorem not_found_of_not_filled {H : TdmaHelper} {created : TdmaController} {nodes : List UInt32}
    (h : ¬ (H.assigned created nodes).Filled) :
    ∃ tr u, Run (Step (H.assigned created nodes) change) still tr u ∧
      ¬ SlotsFound (H.assigned created nodes) u := by
  have htotal := TdmaHelper.totalSlotsAllowed_assigned (H := H) created nodes
  set c := H.assigned created nodes with hc
  have hbound : ∀ n : ℕ, c.slotPtrs[n]?.isSome → n < c.totalSlotsAllowed := by
    intro n hn
    obtain ⟨node, -, hlt, -⟩ := (TdmaHelper.isSome_slotPtrs_assigned created nodes n).mp hn
    omega
  -- the first slot that has no MAC
  have hmissing : ∃ n : ℕ, c.slotPtrs[n]? = none := by
    refine ⟨c.totalSlotsAllowed, ?_⟩
    rw [← Option.not_isSome_iff_eq_none]
    exact fun hsome => lt_irrefl _ (hbound _ hsome)
  have hfirst : ∀ m < Nat.find hmissing, c.slotPtrs[m]?.isSome := fun m hm =>
    Option.isSome_iff_ne_none.mpr (Nat.find_min hmissing hm)
  refine not_found_of_missing change hfirst (Nat.find_spec hmissing) fun m hle hpos heq => h ?_
  exact ⟨heq ▸ hpos, fun n => ⟨hbound n, fun hn => hfirst n (by omega)⟩⟩

/-- A table that passes the checks is schedulable exactly when it has a slot and every
slot has a node with a device. -/
theorem slots_found_iff (H : TdmaHelper) (created : TdmaController) (nodes : List UInt32)
    (H' : TdmaHelper) (c : TdmaController)
    (h : (H.setTdmaControllerHelper created).install nodes = .ok H') (hc : H'.controller = some c) :
    (∀ change s tr u, s.Idle → Run (Step c change) s tr u → SlotsFound c u) ↔
      H.SlotsTaken nodes := by
  rw [TdmaHelper.install_setTdmaControllerHelper] at h
  split_ifs at h
  cases h
  cases hc
  rw [← TdmaHelper.filled_assigned_iff created nodes]
  constructor
  · intro hfound
    by_contra hfilled
    obtain ⟨tr, u, hrun, hnot⟩ := not_found_of_not_filled (fun _ _ _ => False) hfilled
    exact hnot (hfound _ _ _ _ still_idle hrun)
  · intro hfilled change s tr u hs hrun p hp _
    rw [exists_session_iff, hfilled.isSome_iff]
    exact (exclusive_run hfilled hrun hs).1.found p hp

/-! ### The documented table -/

/-- The helper with devices on the nodes of a list. -/
def installed (nodes : List UInt32) : TdmaHelper :=
  { Sample.slotTable with
    controller := some (Sample.slotTable.assigned Sample.controller nodes)
    devices := nodes.zipIdx }

theorem install_slotTable (nodes : List UInt32) :
    (Sample.slotTable.setTdmaControllerHelper Sample.controller).install nodes =
      .ok (installed nodes) := by
  rw [TdmaHelper.install_setTdmaControllerHelper,
    if_pos (by simp [Sample.slotTable_complete.accepts])]
  rfl

theorem slots_found_iff_sample :
    (∀ change s tr u, s.Idle →
        Run (Step (Sample.slotTable.assigned Sample.controller [0, 1, 2, 3]) change) s tr u →
          SlotsFound (Sample.slotTable.assigned Sample.controller [0, 1, 2, 3]) u) ↔
      Sample.slotTable.SlotsTaken [0, 1, 2, 3] :=
  slots_found_iff Sample.slotTable Sample.controller [0, 1, 2, 3] (installed [0, 1, 2, 3]) _
    (install_slotTable _) rfl

/-- Without a device on node 3 the last slot is not found. -/
theorem uninstalled_slot_not_found :
    ¬ ∀ (H : TdmaHelper) (created : TdmaController) (nodes : List UInt32) (H' : TdmaHelper)
      (c : TdmaController), nodes ≠ [] →
        (H.setTdmaControllerHelper created).install nodes = .ok H' → H'.controller = some c →
          ∀ change s tr u, s.Idle → Run (Step c change) s tr u → SlotsFound c u := by
  intro h
  have htaken : ¬ Sample.slotTable.SlotsTaken [0, 1, 2] := by
    rintro ⟨-, htaken⟩
    obtain ⟨i, hi, hin, hone⟩ := htaken 5 (by decide) (by decide)
    have hnone : ∀ i < 4, Sample.slotTable.slotAllotmentArray i 0 ∈ [0, 1, 2] →
        Sample.slotTable.slotAllotmentArray i 5 ≠ 1 := by decide
    exact hnone i hi hin hone
  rw [← TdmaHelper.filled_assigned_iff Sample.controller] at htaken
  obtain ⟨tr, u, hrun, hnot⟩ := not_found_of_not_filled (fun _ _ _ => False) htaken
  exact hnot (h Sample.slotTable Sample.controller [0, 1, 2] (installed [0, 1, 2]) _ (by decide)
    (install_slotTable _) rfl _ _ _ _ still_idle hrun)

end SAeroRP.Tdma
