import SAeroRP.Library.Periodic
import SAeroRP.Properties.Frames
import SAeroRP.Properties.SlotTables

/-! The timetable of the controller. However the queues change and whatever is sent, the grants
of a run are those of one frame repeated for ever from the time of the start, and none of them
comes late. -/

namespace SAeroRP

open Library

/-! ### The order of the sessions -/

namespace TdmaController.Frame

variable {c : TdmaController} {slotNum : ℕ} {l : List Session}

theorem head? (h : Frame c slotNum l) : l.head?.map Session.slotNum = some slotNum := by
  cases h with
  | last h | more h =>
    obtain ⟨hnum, -⟩ := scheduleTdmaSession_ok h
    simp [hnum]

theorem ne_nil (h : Frame c slotNum l) : l ≠ [] := by
  cases h <;> exact List.cons_ne_nil _ _

/-- What follows a session is the session behind it, and slot 0 after the last one. -/
theorem slotNum_next (h : Frame c slotNum l) {i : ℕ} {s : Session} (hs : l[i]? = some s) :
    s.next.slotNum = (l[i + 1]?.map Session.slotNum).getD 0 := by
  induction h generalizing i with
  | last h hnext =>
    cases i with
    | zero =>
      cases hs
      rw [hnext]
      rfl
    | succ i => cases hs
  | @more _ next _ l h hnext hl ih =>
    cases i with
    | zero =>
      cases hs
      rw [hnext, List.getElem?_cons_succ, ← List.head?_eq_getElem?, hl.head?]
      rfl
    | succ i => exact ih hs

/-- The same when the frame is repeated. -/
theorem slotNum_next_mod (h : Frame c 0 l) {k : ℕ} {s s' : Session}
    (hs : l[k % l.length]? = some s) (hs' : l[(k + 1) % l.length]? = some s') :
    s.next.slotNum = s'.slotNum := by
  have hmod := Nat.mod_lt k (List.length_pos_iff.mpr h.ne_nil)
  rw [h.slotNum_next hs]
  rw [← Nat.mod_add_mod] at hs'
  rcases Nat.lt_or_ge (k % l.length + 1) l.length with hlt | hge
  · rw [Nat.mod_eq_of_lt hlt] at hs'
    rw [hs']
    rfl
  · -- the session is the last of its frame
    have hlast : k % l.length + 1 = l.length := by omega
    have hhead := h.head?
    rw [hlast, Nat.mod_self, ← List.head?_eq_getElem?] at hs'
    rw [hs'] at hhead
    rw [hlast, List.getElem?_eq_none le_rfl]
    exact (Option.some.inj hhead).symm

theorem delay_nonneg (h : Frame c slotNum l) : ∀ g ∈ l.map Session.delay, 0 ≤ g := by
  intro g hg
  obtain ⟨s, hs, rfl⟩ := List.mem_map.mp hg
  have hdelay := le_delay (h.scheduled s hs)
  have hslot := transmissionSlot_nonneg (h.scheduled s hs)
  have hguard := c.getGaurdTime_nonneg
  linarith

end TdmaController.Frame

namespace Tdma

open TdmaCentralMac

variable {c : TdmaController} {change : Time → TdmaMacQueue → TdmaMacQueue → Prop}
  {l : List Session} {t₀ : Time} {s t u : Tdma} {tr : List (Transition Tdma Event (List Frame))}

/-! ### The timetable -/

/-- When the session with number `k` begins, if the first begins at `t₀`. -/
def begins (l : List Session) (t₀ : Time) (k : ℕ) : Time := t₀ + offset (l.map Session.delay) k

/-- The grant with number `k`. -/
def timetable (l : List Session) (t₀ : Time) (k : ℕ) : Option Grant :=
  l[k % l.length]?.map fun r =>
    ⟨r.mac, begins l t₀ k, begins l t₀ k + r.transmissionSlot⟩

/-- So far the grants are those of the timetable, and the next one is due. -/
structure OnTimetable (l : List Session) (t₀ : Time) (s : Tdma) : Prop where
  active : s.activeEpoch = true
  granted : ∀ k < s.granted.length, s.granted[k]? = timetable l t₀ k
  past : ∀ k < s.granted.length, begins l t₀ k ≤ s.now
  future : s.now ≤ begins l t₀ s.granted.length
  pending : ∃ e, s.sessions = [(begins l t₀ s.granted.length, e)] ∧
    ∀ r, l[s.granted.length % l.length]? = some r → e.slotNum = r.slotNum

/-- At the next session's time, the session that begins is the one of the timetable. -/
theorem OnTimetable.session_eq (hl : c.Frame 0 l) (hs : OnTimetable l t₀ s) {p : Time × SessionEvent}
    {r : Session} (hp : p ∈ s.sessions) (h : c.scheduleTdmaSession p.2.slotNum = .ok r) :
    p.1 = begins l t₀ s.granted.length ∧ s.sessions.erase p = [] ∧
      l[s.granted.length % l.length]? = some r := by
  obtain ⟨e, hsessions, hnum⟩ := hs.pending
  rw [hsessions] at hp
  obtain rfl := List.mem_singleton.mp hp
  have hmod := Nat.mod_lt s.granted.length (List.length_pos_iff.mpr hl.ne_nil)
  have hget := List.getElem?_eq_getElem hmod
  have hscheduled := hl.scheduled _ (List.getElem_mem hmod)
  rw [hnum _ hget, hscheduled] at h
  exact ⟨rfl, by rw [hsessions, List.erase_cons_head], by rw [hget, Except.ok.inj h]⟩

variable (t₀) in
theorem begins_succ {k : ℕ} {r : Session} (h : l[k % l.length]? = some r) :
    begins l t₀ (k + 1) = begins l t₀ k + r.delay := by
  have hgap : (l.map Session.delay)[k % (l.map Session.delay).length]? = some r.delay := by
    rw [List.length_map, List.getElem?_map, h]
    rfl
  rw [begins, offset_succ hgap, ← add_assoc, begins]

variable (t₀) in
theorem begins_mono (hl : c.Frame 0 l) {k m : ℕ} (h : k ≤ m) : begins l t₀ k ≤ begins l t₀ m :=
  add_le_add_right (offset_mono hl.delay_nonneg h) t₀

theorem onTimetable_session (hl : c.Frame 0 l) (hs : OnTimetable l t₀ s) {p : Time × SessionEvent}
    {r : Session} (hp : p ∈ s.sessions) (hdue : p.1 = s.now)
    (h : c.scheduleTdmaSession p.2.slotNum = .ok r) (sends : List PendingSend)
    (queues : MacPtr → TdmaMacQueue) :
    OnTimetable l t₀ { s with
      sessions := s.sessions.erase p ++ [(s.now + r.delay, r.next)]
      sends := sends
      queues := queues
      granted := s.granted ++ [⟨r.mac, s.now, s.now + r.transmissionSlot⟩] } := by
  obtain ⟨hbegins, herase, hr⟩ := hs.session_eq hl hp h
  have hnow : begins l t₀ s.granted.length = s.now := hbegins.symm.trans hdue
  have hdelay := hl.delay_nonneg r.delay (List.mem_map_of_mem (List.mem_of_getElem? hr))
  have hnext := begins_succ t₀ hr
  rw [hnow] at hnext
  constructor
  case active => exact hs.active
  case granted =>
    intro k hk
    rw [List.length_append, List.length_singleton, Nat.lt_succ_iff_lt_or_eq] at hk
    rcases hk with hk | rfl
    · rw [List.getElem?_append_left hk]
      exact hs.granted k hk
    · rw [List.getElem?_append_right le_rfl, Nat.sub_self, timetable, hr, hnow]
      rfl
  case past =>
    intro k hk
    rw [List.length_append, List.length_singleton, Nat.lt_succ_iff_lt_or_eq] at hk
    rcases hk with hk | rfl
    · exact hs.past k hk
    · exact hnow.le
  case future =>
    rw [List.length_append, List.length_singleton, hnext]
    exact le_add_of_nonneg_right hdelay
  case pending =>
    rw [List.length_append, List.length_singleton, hnext, herase, List.nil_append]
    exact ⟨_, rfl, fun r' hr' => hl.slotNum_next_mod hr hr'⟩

theorem onTimetable_step (hl : c.Frame 0 l) {e : Event} {frames : List Frame}
    (h : Does c change s e t frames) (hs : OnTimetable l t₀ s) : OnTimetable l t₀ t := by
  cases h with
  | advance hdt hsessions hsends =>
    obtain ⟨e, hpending, hnum⟩ := hs.pending
    refine { hs with past := fun k hk => ?_, future := ?_ }
    · have := hs.past k hk
      simp only
      linarith
    · exact hsessions _ (by rw [hpending]; exact List.mem_singleton_self _)
  | start =>
    rw [start, if_pos hs.active]
    exact hs
  | session hp hdue h hsend => exact onTimetable_session hl hs hp hdue h _ _
  | sendPacketDown hd hdue h hchange hsend => exact { hs with }
  | change h => exact { hs with }

theorem Does.eq_start {frames : List Frame} (h : Does c change s .start t frames) :
    t = s.start := by
  cases h
  rfl

/-- The first start begins the timetable. -/
theorem onTimetable_start (hl : c.Frame 0 l) (hs : Exclusive c s) (hidle : s.activeEpoch = false) :
    OnTimetable l (s.now + 10) s.start := by
  obtain ⟨hsessions, -, hgranted⟩ := hs.idle hidle
  have hstart : s.start = { s with
      activeEpoch := true
      sessions := [(s.now + 10, .startTdmaSessions)] } := by
    simp [start, hidle, hsessions]
  rw [hstart]
  constructor
  case active => rfl
  case granted | past =>
    intro k hk
    rw [hgranted] at hk
    exact absurd hk (Nat.not_lt_zero k)
  case future =>
    simp [hgranted, begins]
  case pending =>
    refine ⟨.startTdmaSessions, by simp [hgranted, begins], fun r hr => ?_⟩
    rw [hgranted, List.length_nil, Nat.zero_mod, ← List.head?_eq_getElem?] at hr
    have hhead := hl.head?
    rw [hr] at hhead
    exact (Option.some.inj hhead).symm

/-- After the first start the run is on the timetable. -/
theorem onTimetable_run (hc : c.Filled) (hl : c.Frame 0 l) (hrun : Run (Step c change) s tr u)
    (hs : s.Idle) {x : Transition Tdma Event (List Frame)} (hx : x ∈ tr) (hstart : x.event = .start)
    (hfirst : x.pre.activeEpoch = false) : OnTimetable l (x.pre.now + 10) u := by
  have hstep : Does c change x.pre x.event x.post x.out := hrun.step_of_mem x hx
  have hexclusive := (exclusive_run hc hrun hs).2 x hx
  refine hrun.invariant_of_mem (fun _ hy => onTimetable_step hl hy) x hx ?_
  rw [hstart] at hstep
  rw [hstep.eq_start]
  exact onTimetable_start hl hexclusive hfirst

/-- In every run of a controller whose slots are filled, with whatever the layers above do:
the grants so far are the first of the timetable that repeats the frame's sessions from 10 ns
after the first start on, and a grant whose time has passed has been given. -/
theorem grants_follow_timetable (c : TdmaController) (hc : c.Filled)
    (change : Time → TdmaMacQueue → TdmaMacQueue → Prop) (l : List Session) (hl : c.Frame 0 l)
    (s u : Tdma) (tr : List (Transition Tdma Event (List Frame)))
    (hrun : Run (Step c change) s tr u) (hs : s.Idle) (x : Transition Tdma Event (List Frame))
    (hx : x ∈ tr) (hstart : x.event = .start) (hfirst : x.pre.activeEpoch = false) :
    (∀ k < u.granted.length, u.granted[k]? = timetable l (x.pre.now + 10) k) ∧
      (∀ k < u.granted.length, begins l (x.pre.now + 10) k ≤ u.now) ∧
      ∀ k, begins l (x.pre.now + 10) k < u.now → k < u.granted.length := by
  have hu := onTimetable_run hc hl hrun hs hx hstart hfirst
  refine ⟨hu.granted, hu.past, fun k hk => ?_⟩
  by_contra hle
  have hlater := begins_mono (x.pre.now + 10) hl (not_lt.mp hle)
  have hfuture := hu.future
  linarith

/-! ### Access to the channel -/

/-- The time from the beginning of a frame to that of the next one. -/
def frameTime (c : TdmaController) (l : List Session) : Time :=
  Time.microSeconds (c.slotTime * c.totalSlotsAllowed + l.length * c.gaurdTime +
    c.tdmaInterFrameTime)

theorem sum_delay_eq_frameTime (hl : c.Frame 0 l) : (l.map Session.delay).sum = frameTime c l := by
  have hsum := hl.add_sum
  rw [Nat.zero_add] at hsum
  rw [hl.sum_delay, hsum, frameTime]

/-- A slot is in one of the sessions of the frame. -/
theorem exists_session_of_slot (hl : c.Frame 0 l) {j : ℕ} (hj : j < c.totalSlotsAllowed) :
    ∃ r ∈ l, r.slotNum ≤ j ∧ j < r.slotNum + r.numOfSlotsAllotted ∧
      c.slotPtrs[j]? = some r.mac := by
  have hmem : j ∈ l.flatMap fun r => List.range' r.slotNum r.numOfSlotsAllotted := by
    rw [hl.slots, List.mem_range'_1]
    omega
  obtain ⟨r, hr, hrange⟩ := List.mem_flatMap.mp hmem
  obtain ⟨hle, hlt⟩ := List.mem_range'_1.mp hrange
  exact ⟨r, hr, hle, hlt, hl.mac r hr j hrange⟩

/-- The last grant for a place in the frame, when the first frame has passed. -/
theorem OnTimetable.exists_grant (hl : c.Frame 0 l) (hs : OnTimetable l t₀ s) {r : Session}
    (hr : r ∈ l) (hlater : t₀ + frameTime c l < s.now) :
    ∃ g ∈ s.granted, g.mac = r.mac ∧ g.stop = g.start + r.transmissionSlot ∧ g.start ≤ s.now ∧
      s.now ≤ g.start + frameTime c l := by
  obtain ⟨i, hi, hget⟩ := List.getElem_of_mem hr
  rw [← sum_delay_eq_frameTime hl] at hlater ⊢
  have hfuture := hs.future
  have hgranted : i < s.granted.length := by
    by_contra hle
    have hbegins : begins l t₀ s.granted.length ≤ begins l t₀ l.length :=
      begins_mono t₀ hl ((not_lt.mp hle).trans hi.le)
    have hframe : offset (l.map Session.delay) l.length = (l.map Session.delay).sum := by
      have hne : l.map Session.delay ≠ [] := by simpa using hl.ne_nil
      have hlength := offset_length hne
      rwa [List.length_map] at hlength
    rw [begins.eq_1 l t₀ l.length, hframe] at hbegins
    linarith
  have hlt : i < (l.map Session.delay).length := by rwa [List.length_map]
  obtain ⟨k, hk, hmod, hle⟩ := exists_le_offset_add_sum hl.delay_nonneg hlt hgranted
  rw [List.length_map] at hmod
  have hgrant := hs.granted k hk
  rw [timetable, hmod, List.getElem?_eq_getElem hi, hget] at hgrant
  have hnow : s.now ≤ begins l t₀ k + (l.map Session.delay).sum := by
    unfold begins at hfuture ⊢
    linarith
  exact ⟨_, List.mem_of_getElem? hgrant, rfl, rfl, hs.past k hk, hnow⟩

/-- In every run, once the first frame has passed, every slot was in a grant of its MAC that
began at most a frame ago. -/
theorem slot_granted_in_every_frame (c : TdmaController) (hc : c.Filled)
    (change : Time → TdmaMacQueue → TdmaMacQueue → Prop) (l : List Session) (hl : c.Frame 0 l)
    (s u : Tdma) (tr : List (Transition Tdma Event (List Frame)))
    (hrun : Run (Step c change) s tr u) (hs : s.Idle) (x : Transition Tdma Event (List Frame))
    (hx : x ∈ tr) (hstart : x.event = .start) (hfirst : x.pre.activeEpoch = false)
    (hlater : x.pre.now + 10 + frameTime c l < u.now) (j : ℕ) (hj : j < c.totalSlotsAllowed) :
    ∃ r ∈ l, r.slotNum ≤ j ∧ j < r.slotNum + r.numOfSlotsAllotted ∧
      ∃ g ∈ u.granted, c.slotPtrs[j]? = some g.mac ∧ g.stop = g.start + r.transmissionSlot ∧
        g.start ≤ u.now ∧ u.now ≤ g.start + frameTime c l := by
  have hu := onTimetable_run hc hl hrun hs hx hstart hfirst
  obtain ⟨r, hr, hle, hlt, hmac⟩ := exists_session_of_slot hl hj
  obtain ⟨g, hg, hgmac, hstop, hpast, hrecent⟩ := hu.exists_grant hl hr hlater
  exact ⟨r, hr, hle, hlt, g, hg, hgmac ▸ hmac, hstop, hpast, hrecent⟩

/-! ### Three sessions of two MACs -/

def secondSession : Session :=
  ⟨1, 1, 1, Time.microSeconds 1100, Time.microSeconds 1200, .startTdmaSessions⟩

theorem secondSession_scheduled : twoSlots.scheduleTdmaSession 1 = .ok secondSession := by
  rfl

theorem twoSlots_frame : twoSlots.Frame 0 [firstSession, secondSession] :=
  .more firstSession_scheduled rfl (.last secondSession_scheduled rfl)

/-- There is nothing to send, and a session event is pending. -/
def expecting (now : Time) (p : Time × SessionEvent) (granted : List Grant) : Tdma where
  now := now
  activeEpoch := true
  sessions := [p]
  queues _ := {}
  granted := granted

theorem Does.wait {s : Tdma} {t : Time} (hle : s.now ≤ t) (hsessions : ∀ p ∈ s.sessions, t ≤ p.1)
    (hsends : ∀ d ∈ s.sends, t ≤ d.due) :
    Does c change s (.advance (t - s.now)) { s with now := t } [] := by
  have hnow : s.now + (t - s.now) = t := add_sub_cancel _ _
  have hdoes : Does c change s (.advance (t - s.now)) { s with now := s.now + (t - s.now) } [] :=
    .advance (by linarith) (by rwa [hnow]) (by rwa [hnow])
  rwa [hnow] at hdoes

variable (change) in
/-- With no call pending, time passes until the session of a slot that has a MAC. -/
theorem session_run {s : Tdma} {p : Time × SessionEvent} (hsessions : s.sessions = [p])
    (hsends : s.sends = []) (hlater : s.now ≤ p.1) {r : Session} {q : TdmaMacQueue}
    {d : Option SendEvent} (h : c.scheduleTdmaSession p.2.slotNum = .ok r)
    (hsend : startTransmission c p.1 r.transmissionSlot.getMicroSeconds (s.queues r.mac) =
      .ok (q, d)) :
    ∃ tr, Run (Step c change) s tr { s with
      now := p.1
      sessions := [(p.1 + r.delay, r.next)]
      sends := (d.map (·.pending p.1 r.mac)).toList
      queues := Function.update s.queues r.mac q
      granted := s.granted ++ [⟨r.mac, p.1, p.1 + r.transmissionSlot⟩] } := by
  have hwait : Does c change s (.advance (p.1 - s.now)) { s with now := p.1 } [] := by
    refine .wait hlater (fun q hq => ?_) (fun d hd => by simp [hsends] at hd)
    rw [hsessions, List.mem_singleton] at hq
    rw [hq]
  have hmem : p ∈ s.sessions := hsessions ▸ List.mem_singleton_self p
  have hdoes : Does c change { s with now := p.1 } (.session p) _ [] := .session hmem rfl h hsend
  have hrun : Run (Step c change) s _ _ :=
    .cons (x := ⟨_, _, _, _⟩) rfl hwait (.single ⟨_, _, _, _⟩ hdoes)
  simp only [hsessions, hsends, List.erase_cons_head, List.nil_append] at hrun
  exact ⟨_, hrun⟩

/-- Time passes until the only call that is pending, during which nothing arrives. -/
theorem send_run (hchange : ∀ now q, change now q q) {s : Tdma} {d : PendingSend}
    (hsends : s.sends = [d]) (hnow : s.now ≤ d.due) (hsessions : ∀ p ∈ s.sessions, d.due ≤ p.1)
    {frame : Frame} {q q' : TdmaMacQueue} {d' : Option SendEvent}
    (h : sendPacketDown d.due (s.queues d.mac) = .ok (frame, q))
    (hsend : startTransmission c d.due d.remainingTime.getMicroSeconds q = .ok (q', d')) :
    ∃ tr, Run (Step c change) s tr { s with
      now := d.due
      sends := (d'.map (·.pending d.due d.mac)).toList
      queues := Function.update s.queues d.mac q' } := by
  have hwait : Does c change s (.advance (d.due - s.now)) { s with now := d.due } [] := by
    refine .wait hnow hsessions (fun e he => ?_)
    rw [hsends, List.mem_singleton] at he
    rw [he]
  have hmem : d ∈ s.sends := hsends ▸ List.mem_singleton_self d
  have hdoes : Does c change { s with now := d.due } (.sendPacketDown d) _ [frame] :=
    .sendPacketDown hmem rfl h (hchange _ _) hsend
  have hrun : Run (Step c change) s _ _ :=
    .cons (x := ⟨_, _, _, _⟩) rfl hwait (.single ⟨_, _, _, _⟩ hdoes)
  simp only [hsends, List.erase_cons_head, List.nil_append] at hrun
  exact ⟨_, hrun⟩

variable (change) in
/-- Time passes until the session of a slot that has a MAC. -/
theorem expecting_run (now : Time) (p : Time × SessionEvent) (hlater : now ≤ p.1)
    (granted : List Grant) {r : Session} (h : c.scheduleTdmaSession p.2.slotNum = .ok r) :
    ∃ tr, Run (Step c change) (expecting now p granted) tr (expecting p.1 (p.1 + r.delay, r.next)
      (granted ++ [⟨r.mac, p.1, p.1 + r.transmissionSlot⟩])) := by
  obtain ⟨tr, hrun⟩ := session_run change (s := expecting now p granted) rfl rfl hlater h
    (startTransmission_of_empty rfl)
  rw [Function.update_eq_self] at hrun
  exact ⟨tr, hrun⟩

/-- The state when the second frame has begun. -/
def inSecondFrame : Tdma :=
  expecting (10 + Time.microSeconds 2400)
    (10 + Time.microSeconds 3600, .scheduleTdmaSession 1)
    [⟨0, 10, 10 + Time.microSeconds 1100⟩,
      ⟨1, 10 + Time.microSeconds 1200, 10 + Time.microSeconds 2300⟩,
      ⟨0, 10 + Time.microSeconds 2400, 10 + Time.microSeconds 3500⟩]

/-- The state when the first frame has begun. -/
def inFirstFrame : Tdma :=
  expecting 10 (10 + Time.microSeconds 1200, .scheduleTdmaSession 1)
    [⟨0, 10, 10 + Time.microSeconds 1100⟩]

variable (change) in
theorem exists_first_run : ∃ tr, Run (Step twoSlots change) still
    (⟨still, .start, [], still.start⟩ :: tr) inFirstFrame := by
  have hstart : Does twoSlots change still .start still.start [] := .start
  obtain ⟨tr, hrun⟩ := expecting_run change 0 (10, .startTdmaSessions) (by decide) []
    firstSession_scheduled
  exact ⟨tr, .cons rfl hstart hrun⟩

variable (change) in
/-- The rest of the first frame, and a while after the first session of the second. -/
theorem exists_second_run : ∃ tr, Run (Step twoSlots change) inFirstFrame tr
    { inSecondFrame with now := 10 + Time.microSeconds 2410 } := by
  obtain ⟨tr, hrun⟩ := expecting_run change 10
    (10 + Time.microSeconds 1200, .scheduleTdmaSession 1) (by decide)
    [⟨0, 10, 10 + Time.microSeconds 1100⟩] secondSession_scheduled
  obtain ⟨tr', hrun'⟩ := expecting_run change (10 + Time.microSeconds 1200)
    (10 + Time.microSeconds 2400, .startTdmaSessions) (by decide)
    [⟨0, 10, 10 + Time.microSeconds 1100⟩,
      ⟨1, 10 + Time.microSeconds 1200, 10 + Time.microSeconds 2300⟩] firstSession_scheduled
  have hwait : Does twoSlots change inSecondFrame (.advance (Time.microSeconds 10))
      { inSecondFrame with now := 10 + Time.microSeconds 2410 } [] :=
    .advance (by decide) (by decide) (by decide)
  exact ⟨_, (hrun.append hrun').append (.single ⟨_, _, _, _⟩ hwait)⟩

variable (change) in
theorem exists_frame_run : ∃ tr, Run (Step twoSlots change) still
    (⟨still, .start, [], still.start⟩ :: tr)
    { inSecondFrame with now := 10 + Time.microSeconds 2410 } := by
  obtain ⟨tr, hrun⟩ := exists_first_run change
  obtain ⟨tr', hrun'⟩ := exists_second_run change
  exact ⟨tr ++ tr', hrun.append hrun'⟩

theorem twoSlots_next {m : ℕ} (hm : m < 2) : ∃ r, twoSlots.scheduleTdmaSession m = .ok r ∧
    r.delay = Time.microSeconds 1200 ∧ r.next.slotNum < 2 := by
  obtain rfl | rfl : m = 0 ∨ m = 1 := by omega
  · exact ⟨_, firstSession_scheduled, rfl, by decide⟩
  · exact ⟨_, secondSession_scheduled, rfl, by decide⟩

/-- With nothing to send, `k` more sessions of the two slots pass. -/
theorem expecting_runs (change : Time → TdmaMacQueue → TdmaMacQueue → Prop) (k : ℕ) {now : Time}
    {p : Time × SessionEvent} (hlater : now ≤ p.1) (hp : p.2.slotNum < 2) (granted : List Grant) :
    ∃ tr p' granted', Run (Tdma.Step twoSlots change) (expecting now p granted) tr
      (expecting (p.1 + k * Time.microSeconds 1200) p' granted') := by
  obtain ⟨r, hr, hdelay, hnext⟩ := twoSlots_next hp
  obtain ⟨tr, hrun⟩ := expecting_run change now p hlater granted hr
  induction k generalizing now p granted r tr with
  | zero => exact ⟨tr, _, _, by simpa using hrun⟩
  | succ k ih =>
    obtain ⟨r', hr', hdelay', hnext'⟩ := twoSlots_next hnext
    have hle : p.1 ≤ p.1 + r.delay := by
      rw [hdelay]
      exact le_add_of_nonneg_right (by decide)
    obtain ⟨tr', hrun'⟩ := expecting_run change p.1 (p.1 + r.delay, r.next) hle _ hr'
    obtain ⟨tr'', p', granted', hrest⟩ := ih hle hnext _ r' hr' hdelay' hnext' tr' hrun'
    have htime : p.1 + r.delay + k * Time.microSeconds 1200 =
        p.1 + (k + 1 : ℕ) * Time.microSeconds 1200 := by
      rw [hdelay]
      push_cast
      ring
    rw [htime] at hrest
    exact ⟨tr ++ tr'', p', granted', hrun.append hrest⟩

theorem grants_follow_timetable_sample :
    inSecondFrame.granted[1]? = timetable [firstSession, secondSession] 10 1 := by
  obtain ⟨tr, hrun⟩ := exists_frame_run quiet
  exact (grants_follow_timetable twoSlots twoSlots_filled quiet _ twoSlots_frame _ _ _ hrun
    still_idle _ List.mem_cons_self rfl rfl).1 1 (by decide)

theorem slot_granted_in_every_frame_sample :
    ∃ g ∈ inSecondFrame.granted, twoSlots.slotPtrs[1]? = some g.mac ∧
      10 + Time.microSeconds 2410 ≤ g.start + frameTime twoSlots [firstSession, secondSession] := by
  obtain ⟨tr, hrun⟩ := exists_frame_run quiet
  obtain ⟨r, -, -, -, g, hg, hmac, -, -, hrecent⟩ := slot_granted_in_every_frame twoSlots
    twoSlots_filled quiet _ twoSlots_frame _ _ _ hrun still_idle _ List.mem_cons_self rfl rfl
    (by decide) 1 (by decide)
  exact ⟨g, hg, hmac, hrecent⟩

end Tdma

end SAeroRP
