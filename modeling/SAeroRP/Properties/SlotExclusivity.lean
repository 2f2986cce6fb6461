import SAeroRP.Tdma.Sample
import SAeroRP.Tdma.System

/-! Exclusive use of the channel. Once the sessions have begun there is always one
pending session event, later than the end of the last grant by the guard time or
more; a MAC that was granted a time span ends all its calls before the span ends. -/

namespace SAeroRP.Tdma

open Library TdmaCentralMac

variable {c : TdmaController} {change : Time → TdmaMacQueue → TdmaMacQueue → Prop}
  {s t u : Tdma} {tr : List (Transition Tdma Event (List Frame))}

/-! ### The invariant -/

/-- The time a call of SendPacketDown may still use ends within a grant of its MAC. -/
def InGrant (s : Tdma) (d : PendingSend) : Prop :=
  0 < d.remainingTime ∧ ∃ g ∈ s.granted, g.mac = d.mac ∧ d.due + d.remainingTime ≤ g.stop

/-- The span is for the slots of a session that was scheduled. -/
def Scheduled (c : TdmaController) (g : Grant) : Prop :=
  ∃ slotNum r, c.scheduleTdmaSession slotNum = .ok r ∧ g.mac = r.mac ∧
    g.stop = g.start + Time.microSeconds (c.slotTime * r.numOfSlotsAllotted)

structure Exclusive (c : TdmaController) (s : Tdma) : Prop where
  idle : s.activeEpoch = false → s.sessions = [] ∧ s.sends = [] ∧ s.granted = []
  sessions : s.sessions.length ≤ 1
  found : ∀ p ∈ s.sessions, p.2.slotNum < c.totalSlotsAllowed
  sends : s.sends.length ≤ 1
  due : ∀ d ∈ s.sends, s.now ≤ d.due
  inGrant : ∀ d ∈ s.sends, InGrant s d
  started : ∀ g ∈ s.granted, g.start ≤ s.now
  scheduled : ∀ g ∈ s.granted, Scheduled c g
  before : ∀ g ∈ s.granted, ∀ p ∈ s.sessions, g.stop + c.getGaurdTime ≤ p.1
  separated : s.granted.Pairwise fun g h => g.stop + c.getGaurdTime ≤ h.start

theorem Idle.exclusive (hs : s.Idle) : Exclusive c s := by
  constructor
  all_goals simp [hs.sessions, hs.sends, hs.granted]

/-! ### Steps -/

/-- When a session begins, the calls of the session before it have ended. -/
theorem Exclusive.sends_eq_nil (hs : Exclusive c s) {p : Time × SessionEvent}
    (hp : p ∈ s.sessions) (hdue : p.1 = s.now) : s.sends = [] := by
  apply List.eq_nil_iff_forall_not_mem.mpr
  intro d hd
  obtain ⟨hpos, g, hg, -, hstop⟩ := hs.inGrant d hd
  have hbefore := hs.before g hg p hp
  have hlater := hs.due d hd
  have hguard := c.getGaurdTime_nonneg
  linarith

/-- Taking the one entry off a list leaves nothing. -/
theorem erase_eq_nil {α : Type} [BEq α] [LawfulBEq α] {l : List α} {a : α} (hl : l.length ≤ 1)
    (ha : a ∈ l) : l.erase a = [] := by
  have hlen := List.length_erase_of_mem ha
  apply List.eq_nil_of_length_eq_zero
  omega

theorem length_toList_map_le {α β : Type} (f : α → β) (d : Option α) :
    (d.map f).toList.length ≤ 1 := by
  cases d <;> simp

theorem mem_pending {now : Time} {mac : MacPtr} {d : Option SendEvent} {d' : PendingSend}
    (h : d' ∈ (d.map (·.pending now mac)).toList) : ∃ e, d = some e ∧ d' = e.pending now mac := by
  cases d with
  | none => cases h
  | some e => exact ⟨e, rfl, List.mem_singleton.mp h⟩

theorem exclusive_session (hc : c.Filled) (hs : Exclusive c s) {p : Time × SessionEvent}
    {r : Session} {q : TdmaMacQueue} {d : Option SendEvent} (hp : p ∈ s.sessions)
    (hdue : p.1 = s.now) (h : c.scheduleTdmaSession p.2.slotNum = .ok r)
    (hsend : startTransmission c s.now r.transmissionSlot.getMicroSeconds (s.queues r.mac) =
      .ok (q, d)) :
    Exclusive c { s with
      sessions := s.sessions.erase p ++ [(s.now + r.delay, r.next)]
      sends := s.sends ++ (d.map (·.pending s.now r.mac)).toList
      queues := Function.update s.queues r.mac q
      granted := s.granted ++ [⟨r.mac, s.now, s.now + r.transmissionSlot⟩] } := by
  have hdelay := TdmaController.le_delay h
  have hslot := TdmaController.transmissionSlot_nonneg h
  have hguard := c.getGaurdTime_nonneg
  have hold : ∀ g ∈ s.granted, g.stop + c.getGaurdTime ≤ s.now := fun g hg =>
    (hs.before g hg p hp).trans_eq hdue
  rw [erase_eq_nil hs.sessions hp, hs.sends_eq_nil hp hdue, List.nil_append, List.nil_append]
  constructor
  case idle =>
    intro hactive
    have hnone := (hs.idle hactive).1
    rw [hnone] at hp
    cases hp
  case sessions =>
    exact le_rfl
  case found =>
    intro p' hp'
    rw [List.mem_singleton.mp hp']
    exact hc.next h
  case sends =>
    exact length_toList_map_le _ d
  case due =>
    intro d' hd'
    obtain ⟨e, rfl, rfl⟩ := mem_pending hd'
    exact (due_of_startTransmission hsend r.mac).1
  case inGrant =>
    intro d' hd'
    obtain ⟨e, rfl, rfl⟩ := mem_pending hd'
    obtain ⟨-, hpos, hsum⟩ := due_of_startTransmission hsend r.mac
    rw [TdmaController.microSeconds_transmissionSlot h] at hsum
    exact ⟨hpos, _, List.mem_append_right _ (List.mem_singleton_self _), rfl, hsum.le⟩
  case started =>
    intro g hg
    rcases List.mem_append.mp hg with hg | hg
    · exact hs.started g hg
    · rw [List.mem_singleton.mp hg]
  case scheduled =>
    intro g hg
    rcases List.mem_append.mp hg with hg | hg
    · exact hs.scheduled g hg
    · rw [List.mem_singleton.mp hg]
      obtain ⟨-, -, -, hlen, -⟩ := TdmaController.scheduleTdmaSession_ok h
      exact ⟨_, r, h, rfl, by rw [hlen]⟩
  case before =>
    intro g hg p' hp'
    rw [List.mem_singleton.mp hp']
    rcases List.mem_append.mp hg with hg | hg
    · have := hold g hg
      simp only
      linarith
    · rw [List.mem_singleton.mp hg]
      simp only
      linarith
  case separated =>
    rw [List.pairwise_append]
    refine ⟨hs.separated, List.pairwise_singleton _ _, fun g hg g' hg' => ?_⟩
    rw [List.mem_singleton.mp hg']
    exact hold g hg

theorem exclusive_send (hs : Exclusive c s) {d : PendingSend} {q q' : TdmaMacQueue}
    {d' : Option SendEvent} (hd : d ∈ s.sends) (hdue : d.due = s.now)
    (hsend : startTransmission c s.now d.remainingTime.getMicroSeconds q = .ok (q', d')) :
    Exclusive c { s with
      sends := s.sends.erase d ++ (d'.map (·.pending s.now d.mac)).toList
      queues := Function.update s.queues d.mac q' } := by
  obtain ⟨hpos, g, hg, hmac, hstop⟩ := hs.inGrant d hd
  rw [erase_eq_nil hs.sends hd, List.nil_append]
  refine { hs with idle := fun hactive => ?_, sends := ?_, due := ?_, inGrant := ?_ }
  · have hnone := (hs.idle hactive).2.1
    rw [hnone] at hd
    cases hd
  · exact length_toList_map_le _ d'
  · intro d'' hd''
    obtain ⟨e, rfl, rfl⟩ := mem_pending hd''
    exact (due_of_startTransmission hsend d.mac).1
  · intro d'' hd''
    obtain ⟨e, rfl, rfl⟩ := mem_pending hd''
    obtain ⟨-, hpos', hsum⟩ := due_of_startTransmission hsend d.mac
    -- rounding to microseconds loses time
    have hround := Time.microSeconds_getMicroSeconds_le hpos.le
    refine ⟨hpos', g, hg, hmac, ?_⟩
    linarith

theorem exclusive_start (hc : c.Filled) (hs : Exclusive c s) : Exclusive c s.start := by
  unfold start
  split_ifs with hactive
  · exact hs
  · rw [Bool.not_eq_true] at hactive
    obtain ⟨hsessions, hsends, hgranted⟩ := hs.idle hactive
    constructor
    all_goals simp [hsessions, hsends, hgranted, SessionEvent.slotNum, hc.pos]

theorem exclusive_step (hc : c.Filled) {e : Event} {frames : List Frame}
    (h : Does c change s e t frames) (hs : Exclusive c s) : Exclusive c t := by
  cases h with
  | advance hdt hsessions hsends =>
    refine { hs with due := hsends, started := fun g hg => ?_ }
    have := hs.started g hg
    simp only
    linarith
  | start => exact exclusive_start hc hs
  | session hp hdue h hsend => exact exclusive_session hc hs hp hdue h hsend
  | sendPacketDown hd hdue h hchange hsend => exact exclusive_send hs hd hdue hsend
  | change h => exact { hs with }

/-! ### Runs -/

theorem exclusive_run (hc : c.Filled) (hrun : Run (Step c change) s tr u) (hs : s.Idle) :
    Exclusive c u ∧ ∀ x ∈ tr, Exclusive c x.pre :=
  hrun.invariant (fun _ hx => exclusive_step hc hx) hs.exclusive

/-- Whatever the queues do and however often the controller is started, from an idle
state on: at most one session event is pending, and it finds its slot; the spans that
are granted are those of sessions, and each ends the guard time or more before the
next one starts; and every call of SendPacketDown happens within a span that was
granted to its MAC. -/
theorem slot_exclusivity (c : TdmaController) (hc : c.Filled)
    (change : Time → TdmaMacQueue → TdmaMacQueue → Prop) (s u : Tdma)
    (tr : List (Transition Tdma Event (List Frame))) (hrun : Run (Step c change) s tr u)
    (hs : s.Idle) :
    u.sessions.length ≤ 1 ∧
      (∀ p ∈ u.sessions, ∃ r, c.scheduleTdmaSession p.2.slotNum = .ok r) ∧
      (∀ g ∈ u.granted, Scheduled c g) ∧
      (u.granted.Pairwise fun g h => g.stop + c.getGaurdTime ≤ h.start) ∧
      ∀ x ∈ tr, ∀ d, x.event = .sendPacketDown d →
        ∃ g ∈ x.pre.granted, g.mac = d.mac ∧ g.start ≤ x.pre.now ∧ x.pre.now < g.stop := by
  obtain ⟨hu, hpre⟩ := exclusive_run hc hrun hs
  refine ⟨hu.sessions, fun p hp => ?_, hu.scheduled, hu.separated, fun x hx d he => ?_⟩
  · rw [TdmaController.exists_session_iff, hc.isSome_iff]
    exact hu.found p hp
  · have hstep : Does c change x.pre x.event x.post x.out := hrun.step_of_mem x hx
    rw [he] at hstep
    obtain ⟨hd, hdue⟩ := hstep.due
    obtain ⟨hpos, g, hg, hmac, hstop⟩ := (hpre x hx).inGrant d hd
    refine ⟨g, hg, hmac, (hpre x hx).started g hg, ?_⟩
    linarith

/-! ### A frame of two MACs -/

/-- Two slots, one for each of two MACs, and the default times. -/
def twoSlots : TdmaController where
  slotPtrs := (∅ : Std.ExtTreeMap ℕ MacPtr).insert 0 0 |>.insert 1 1
  totalSlotsAllowed := 2

theorem twoSlots_filled : twoSlots.Filled := by
  refine ⟨by decide, fun n => ?_⟩
  simp only [twoSlots, Std.ExtTreeMap.getElem?_insert]
  by_cases h1 : n = 1
  · simp [h1]
  · by_cases h0 : n = 0
    · simp [h0]
    · have hle : ¬ n < 2 := by omega
      simp [Ne.symm h0, Ne.symm h1, hle]

/-- The first MAC has a packet of 100 bytes waiting. -/
def waiting : Tdma where
  now := 0
  queues mac := if mac = 0 then Sample.queue 100 else {}

def firstSession : Session :=
  ⟨0, 0, 1, Time.microSeconds 1100, Time.microSeconds 1200, .scheduleTdmaSession 1⟩

theorem firstSession_scheduled : twoSlots.scheduleTdmaSession 0 = .ok firstSession := by
  rfl

def firstSend : SendEvent := ⟨72727, Time.microSeconds 1100 - 72727, Sample.item 100⟩

theorem firstSend_scheduled :
    startTransmission twoSlots 10 1100 (waiting.queues 0) =
      .ok (waiting.queues 0, some firstSend) :=
  Sample.startTransmission_item rfl 10 100 72727 (by decide) (by decide) (by decide) (by decide)

/-- The layers above do nothing. -/
def quiet (_ : Time) (q q' : TdmaMacQueue) : Prop := q = q'

/-- The state after the first session began. -/
def sending : Tdma :=
  { waiting.start with
    now := 10
    sessions := [(10 + Time.microSeconds 1200, .scheduleTdmaSession 1)]
    sends := [firstSend.pending 10 0]
    granted := [⟨0, 10, 10 + Time.microSeconds 1100⟩] }

theorem firstFrame_sent :
    sendPacketDown (10 + 72727) (sending.queues 0) = .ok ((Sample.item 100).frame, {}) := by
  rfl

theorem sent_idle : startTransmission twoSlots (10 + 72727)
    firstSend.remainingTime.getMicroSeconds {} = .ok ({}, none) := by
  rfl

/-- The first MAC sends its packet in the first slot. -/
theorem exists_sends : ∃ tr u, Run (Step twoSlots quiet) waiting tr u ∧
    ∃ x ∈ tr, x.event = .sendPacketDown (firstSend.pending 10 0) := by
  have hstart : Does twoSlots quiet waiting .start waiting.start [] := .start
  have hbegin : Does twoSlots quiet waiting.start (.advance 10) { waiting.start with now := 10 } [] :=
    .advance (by decide) (by decide) (by decide)
  have hsession : Does twoSlots quiet { waiting.start with now := 10 }
      (.session (10, .startTdmaSessions)) _ [] :=
    .session (by decide) rfl firstSession_scheduled firstSend_scheduled
  rw [show ({ waiting.start with now := 10 } : Tdma).queues = waiting.queues from rfl,
    show firstSession.mac = 0 from rfl, Function.update_eq_self] at hsession
  have hwait : Does twoSlots quiet sending (.advance 72727) { sending with now := 10 + 72727 } [] :=
    .advance (by decide) (by decide) (by decide)
  have hsend : Does twoSlots quiet { sending with now := 10 + 72727 }
      (.sendPacketDown (firstSend.pending 10 0)) _ _ :=
    .sendPacketDown (List.mem_singleton_self _) rfl firstFrame_sent rfl sent_idle
  exact ⟨_, _, .cons (x := ⟨_, _, _, _⟩) rfl hstart (.cons (x := ⟨_, _, _, _⟩) rfl hbegin
    (.cons (x := ⟨_, _, _, _⟩) rfl hsession (.cons (x := ⟨_, _, _, _⟩) rfl hwait
      (.single ⟨_, _, _, _⟩ hsend)))), _,
    .tail _ (.tail _ (.tail _ (.tail _ (.head _)))), rfl⟩

/-- A run in which the first MAC sends its packet in its slot. -/
theorem slot_exclusivity_sample :
    ∃ tr u, Run (Step twoSlots quiet) waiting tr u ∧
      ∃ x ∈ tr, ∃ g ∈ x.pre.granted, g.mac = 0 ∧ g.start ≤ x.pre.now ∧ x.pre.now < g.stop := by
  obtain ⟨tr, u, hrun, x, hx, he⟩ := exists_sends
  have h := slot_exclusivity twoSlots twoSlots_filled quiet waiting u tr hrun ⟨rfl, rfl, rfl, rfl⟩
  exact ⟨tr, u, hrun, x, hx, h.2.2.2.2 x hx _ he⟩

end SAeroRP.Tdma
