import SAeroRP.System.Sample
import SAeroRP.System.Timers

/-! The advertisements of a node never stop. Start succeeds once; from then on the timer of the
node's role is always running, and its expiries follow each other at the interval of the role,
half an interval of the HELLO messages early or late. -/

namespace SAeroRP.Advertiser

open Library

variable {β : Type} [Preorder β] [DecidableLT β] [DecidableEq β] [Zero β] {E : Env β} {I : Intervals}
  {outOfRange : ℚ → UInt32} {s t u : Advertiser} {e : Event} {es : List Effect}
  {tr : List (Transition Advertiser Event (List Effect))}

/-! ### Roles -/

/-- The timer of the node's role. -/
def ownTimer (s : Advertiser) : Timer :=
  if s.node.isGroundStation then s.gsTimer else s.helloIntervalTimer

def otherTimer (s : Advertiser) : Timer :=
  if s.node.isGroundStation then s.helloIntervalTimer else s.gsTimer

def ownInterval (I : Intervals) (s : Advertiser) : Time :=
  if s.node.isGroundStation then I.gsInterval else I.helloInterval

/-- The expiry of the timer of the node's role. -/
def ownEvent (s : Advertiser) : Event :=
  if s.node.isGroundStation then .gsTimer else .helloTimer

/-- The expiries after which a node advertises. -/
def Event.advertises : Event → Bool
  | .helloTimer => true
  | .gsTimer => true
  | _ => false

/-- The timer runs, and expires an interval and a jitter from now at the latest. -/
structure Waits (I : Intervals) (s : Advertiser) (expiry : Time) : Prop where
  own : s.ownTimer = ⟨true, some expiry⟩
  le : s.now ≤ expiry
  soon : 2 * (expiry - s.now) ≤ 2 * s.ownInterval I + I.helloInterval

/-- The node was started: the timer of its role runs, and the other one does not. -/
structure Advertises (I : Intervals) (s : Advertiser) : Prop where
  waits : ∃ expiry, s.Waits I expiry
  other : s.otherTimer.expiry = none
  helloInterval : 0 ≤ I.helloInterval

/-- Two states of one node with the same role. -/
structure SameRole (s t : Advertiser) : Prop where
  isGroundStation : t.node.isGroundStation = s.node.isGroundStation
  securityState : t.node.securityState = s.node.securityState

theorem SameRole.trans (h : s.SameRole t) (h' : t.SameRole u) : s.SameRole u :=
  ⟨h'.isGroundStation.trans h.isGroundStation, h'.securityState.trans h.securityState⟩

theorem SameRole.ownInterval (h : s.SameRole t) : t.ownInterval I = s.ownInterval I := by
  rw [Advertiser.ownInterval, h.isGroundStation, ← Advertiser.ownInterval]

theorem advertises_ownEvent (s : Advertiser) : s.ownEvent.advertises = true := by
  unfold ownEvent
  split_ifs <;> rfl

theorem SameRole.ownEvent (h : s.SameRole t) : t.ownEvent = s.ownEvent := by
  rw [Advertiser.ownEvent, h.isGroundStation, ← Advertiser.ownEvent]

theorem SameRole.ownTimer (h : s.SameRole t)
    (hhello : t.helloIntervalTimer = s.helloIntervalTimer) (hgs : t.gsTimer = s.gsTimer) :
    t.ownTimer = s.ownTimer ∧ t.otherTimer = s.otherTimer := by
  rw [Advertiser.ownTimer, otherTimer, h.isGroundStation, hhello, hgs]
  exact ⟨rfl, rfl⟩

theorem Advertises.now_le (hs : s.Advertises I) {expiry : Time}
    (h : s.ownTimer.expiry = some expiry) : s.now ≤ expiry := by
  obtain ⟨expiry', hwaits⟩ := hs.waits
  rw [hwaits.own] at h
  cases h
  exact hwaits.le

/-- What leaves the timers running keeps the node advertising. -/
theorem Advertises.of_sameRole (hs : s.Advertises I) (hrole : s.SameRole t)
    (hhello : t.helloIntervalTimer = s.helloIntervalTimer) (hgs : t.gsTimer = s.gsTimer)
    (hnow : s.now ≤ t.now) (hle : ∀ expiry, s.ownTimer.expiry = some expiry → t.now ≤ expiry) :
    t.Advertises I := by
  obtain ⟨hown, hother⟩ := hrole.ownTimer hhello hgs
  obtain ⟨expiry, hwaits⟩ := hs.waits
  refine ⟨⟨expiry, hown.trans hwaits.own, hle expiry (by rw [hwaits.own]), ?_⟩,
    by rw [hother, hs.other], hs.helloInterval⟩
  rw [hrole.ownInterval]
  linarith [hwaits.soon]

/-! ### Steps -/

theorem Does.sameRole (h : Does E I outOfRange s e t es) : s.SameRole t := by
  cases h with
  | advance => exact ⟨rfl, rfl⟩
  | start _ _ _ h =>
    have hnode := (start_ok h).1
    obtain ⟨hgs, hsecure⟩ := role_start _ _ s.node
    exact ⟨by rw [hnode, hgs], by rw [hnode, hsecure]⟩
  | helloTimer _ _ h =>
    obtain ⟨-, -, rfl⟩ := helloTimerExpire_ok h
    exact ⟨rfl, rfl⟩
  | gsTimer _ _ h =>
    obtain ⟨-, -, rfl⟩ := gsTimerExpire_ok h
    exact ⟨rfl, rfl⟩
  | authenticationTimer _ h =>
    obtain ⟨-, rfl⟩ := authenticationTimerExpire_ok h
    exact ⟨rfl, rfl⟩
  | call _ h => exact ⟨h.sameConfig.isGroundStation, h.sameConfig.securityState⟩

/-- Start makes a new node advertise. -/
theorem New.advertises_start {created : Credentials} {generated : Block SHARED_KEY_SIZE}
    {firstJitter authenticatedJitter firstAuthJitter : Time} (hI : 0 ≤ I.gsInterval) (hs : New s)
    (hfirst : I.IsFirstJitter firstJitter)
    (h : s.start created generated firstJitter authenticatedJitter firstAuthJitter = .ok t) :
    t.Advertises I := by
  obtain ⟨hnode, hnow, hground, hairborne⟩ := start_ok h
  have hrole : t.node.isGroundStation = s.node.isGroundStation := by
    rw [hnode, (role_start created generated s.node).1]
  obtain ⟨h0, hle⟩ := hfirst
  cases hgs : s.node.isGroundStation with
  | true =>
    obtain ⟨hschedule, hhello, -⟩ := hground hgs
    obtain ⟨-, -, htimer⟩ := Timer.schedule_ok hschedule
    refine ⟨⟨s.now + firstJitter, ?_, ?_, ?_⟩, ?_, h0.trans ?_⟩
    · rw [ownTimer, hrole, hgs, if_pos rfl, htimer]
    · linarith
    · rw [ownInterval, hrole, hgs, if_pos rfl, hnow]
      linarith
    · rw [otherTimer, hrole, hgs, if_pos rfl, hhello, hs.helloIntervalTimer]
    · linarith
  | false =>
    obtain ⟨hschedule, hgsTimer, -⟩ := hairborne hgs
    obtain ⟨-, -, htimer⟩ := Timer.schedule_ok hschedule
    refine ⟨⟨s.now + firstJitter, ?_, ?_, ?_⟩, ?_, h0.trans ?_⟩
    · rw [ownTimer, hrole, hgs, if_neg Bool.false_ne_true, htimer]
    · linarith
    · rw [ownInterval, hrole, hgs, if_neg Bool.false_ne_true, hnow]
      linarith
    · rw [otherTimer, hrole, hgs, if_neg Bool.false_ne_true, hgsTimer, hs.gsTimer]
    · linarith

/-- A node that advertises is not started again: its timer runs. -/
theorem Advertises.start_ne_ok {created : Credentials} {generated : Block SHARED_KEY_SIZE}
    {firstJitter authenticatedJitter firstAuthJitter : Time} (hs : s.Advertises I) :
    s.start created generated firstJitter authenticatedJitter firstAuthJitter ≠ .ok t := by
  intro h
  obtain ⟨-, -, hground, hairborne⟩ := start_ok h
  obtain ⟨expiry, hown, -, -⟩ := hs.waits
  cases hgs : s.node.isGroundStation with
  | true =>
    rw [ownTimer, hgs, if_pos rfl] at hown
    have hidle : s.gsTimer.setFunction.expiry = none := (Timer.schedule_ok (hground hgs).1).1
    rw [hown] at hidle
    cases hidle
  | false =>
    rw [ownTimer, hgs, if_neg Bool.false_ne_true] at hown
    have hidle : s.helloIntervalTimer.setFunction.expiry = none :=
      (Timer.schedule_ok (hairborne hgs).1).1
    rw [hown] at hidle
    cases hidle

theorem Advertises.ne_start (hs : s.Advertises I) (h : Does E I outOfRange s e t es) :
    e ≠ .start := by
  rintro rfl
  cases h with
  | start _ _ _ h => exact hs.start_ne_ok h

/-- What an expiry makes of the timer of the role: it waits for the interval of the role, half an
interval of the HELLO messages early or late. -/
structure Rearms (I : Intervals) (s t : Advertiser) : Prop where
  own : s.ownTimer = ⟨true, some s.now⟩
  now : t.now = s.now
  next : ∃ delay, t.ownTimer = ⟨true, some (s.now + delay)⟩ ∧ 0 ≤ delay ∧
    2 * s.ownInterval I - I.helloInterval ≤ 2 * delay ∧
    2 * delay ≤ 2 * s.ownInterval I + I.helloInterval

/-- An expiry of the timer of the role keeps the node advertising. -/
theorem Rearms.advertises (h : Rearms I s t) (hs : s.Advertises I) (hrole : s.SameRole t)
    (hother : t.otherTimer = s.otherTimer) : t.Advertises I := by
  obtain ⟨delay, hown, h0, -, hle⟩ := h.next
  refine ⟨⟨s.now + delay, hown, ?_, ?_⟩, by rw [hother, hs.other], hs.helloInterval⟩
  · linarith [h.now]
  · rw [hrole.ownInterval, h.now]
    linarith

/-- A step of a node that advertises is an expiry of the timer of its role, or leaves the two
timers of the advertisements as they are. -/
theorem Advertises.step (hs : s.Advertises I) (h : Does E I outOfRange s e t es) :
    t.Advertises I ∧ ((e = s.ownEvent ∧ Rearms I s t) ∨
      (e.advertises = false ∧ t.ownTimer = s.ownTimer ∧ s.now ≤ t.now)) := by
  have hrole := h.sameRole
  cases h with
  | @advance dt hnode htimers =>
    have hmem : s.ownTimer ∈ [s.helloIntervalTimer, s.gsTimer, s.authenticationTimer] := by
      unfold ownTimer
      split_ifs <;> simp
    have hle : s.now ≤ s.now + dt := by
      cases hnode with
      | advance hdt => linarith
    exact ⟨hs.of_sameRole hrole rfl rfl hle fun expiry h => htimers _ hmem expiry h,
      .inr ⟨rfl, rfl, hle⟩⟩
  | start _ _ _ h => exact absurd h hs.start_ne_ok
  | @helloTimer jitter _ _ hdue hjitter h =>
    obtain ⟨hdelay, -, rfl⟩ := helloTimerExpire_ok h
    have hgs : s.node.isGroundStation = false := by
      by_contra hgs
      have hother := hs.other
      rw [otherTimer, if_pos (eq_true_of_ne_false hgs), hdue] at hother
      cases hother
    have hrearms : Rearms I s
        { s with helloIntervalTimer := ⟨true, some (s.now + (I.helloInterval + jitter))⟩ } := by
      obtain ⟨hlow, hhigh⟩ := hjitter
      obtain ⟨expiry, hwaits⟩ := hs.waits
      have hexpiry := hwaits.own
      rw [ownTimer, hgs, if_neg Bool.false_ne_true] at hexpiry
      rw [hexpiry] at hdue
      refine ⟨?_, rfl, _, ?_, hdelay, ?_, ?_⟩
      · rw [hwaits.own, ← hdue]
      · rw [ownTimer, hgs, if_neg Bool.false_ne_true]
      · rw [ownInterval, hgs, if_neg Bool.false_ne_true]
        linarith
      · rw [ownInterval, hgs, if_neg Bool.false_ne_true]
        linarith
    refine ⟨hrearms.advertises hs hrole ?_, .inl ⟨?_, hrearms⟩⟩
    · rw [otherTimer, otherTimer, hgs, if_neg Bool.false_ne_true, if_neg Bool.false_ne_true]
    · rw [ownEvent, hgs, if_neg Bool.false_ne_true]
  | @gsTimer god attackState nodes jitter _ _ hdue hjitter h =>
    obtain ⟨hdelay, -, rfl⟩ := gsTimerExpire_ok h
    have hgs : s.node.isGroundStation = true := by
      by_contra hgs
      have hother := hs.other
      rw [otherTimer, if_neg hgs, hdue] at hother
      cases hother
    have hrearms : Rearms I s
        { s with gsTimer := ⟨true, some (s.now + (I.gsInterval + jitter))⟩ } := by
      obtain ⟨hlow, hhigh⟩ := hjitter
      obtain ⟨expiry, hwaits⟩ := hs.waits
      have hexpiry := hwaits.own
      rw [ownTimer, if_pos hgs] at hexpiry
      rw [hexpiry] at hdue
      refine ⟨?_, rfl, _, ?_, hdelay, ?_, ?_⟩
      · rw [hwaits.own, ← hdue]
      · rw [ownTimer, if_pos hgs]
      · rw [ownInterval, if_pos hgs]
        linarith
      · rw [ownInterval, if_pos hgs]
        linarith
    refine ⟨hrearms.advertises hs hrole ?_, .inl ⟨?_, hrearms⟩⟩
    · rw [otherTimer, otherTimer, if_pos hgs, if_pos hgs]
    · rw [ownEvent, if_pos hgs]
  | authenticationTimer hdue h =>
    obtain ⟨-, rfl⟩ := authenticationTimerExpire_ok h
    exact ⟨hs.of_sameRole hrole rfl rfl le_rfl fun _ h => hs.now_le h,
      .inr ⟨rfl, rfl, le_rfl⟩⟩
  | call he h =>
    exact ⟨hs.of_sameRole hrole rfl rfl le_rfl fun _ h => hs.now_le h,
      .inr ⟨rfl, (hrole.ownTimer rfl rfl).1, le_rfl⟩⟩

/-- A step of a new node is Start, or leaves its timers as they are. -/
theorem New.step (hs : New s) (h : Does E I outOfRange s e t es) :
    (e = .start ∧ (0 ≤ I.gsInterval → t.Advertises I)) ∨
      (New t ∧ e.advertises = false ∧ e ≠ .start ∧ e ≠ .authenticationTimer) := by
  cases h with
  | advance => exact .inr ⟨⟨hs.1, hs.2, hs.3⟩, rfl, Event.noConfusion, Event.noConfusion⟩
  | start hfirst _ _ h => exact .inl ⟨rfl, fun hI => hs.advertises_start hI hfirst h⟩
  | helloTimer hdue =>
    rw [hs.helloIntervalTimer] at hdue
    cases hdue
  | gsTimer hdue =>
    rw [hs.gsTimer] at hdue
    cases hdue
  | authenticationTimer hdue =>
    rw [hs.authenticationTimer] at hdue
    cases hdue
  | call => exact .inr ⟨⟨hs.1, hs.2, hs.3⟩, rfl, Event.noConfusion, Event.noConfusion⟩

/-! ### Runs -/

/-- The node was not started, or it advertises. -/
def Phase (I : Intervals) (s : Advertiser) : Prop := New s ∨ s.Advertises I

theorem advertises_step (x : Transition Advertiser Event (List Effect))
    (hx : Step E I outOfRange x) (hpre : x.pre.Advertises I) : x.post.Advertises I :=
  (hpre.step hx).1

theorem phase_step (hI : 0 ≤ I.gsInterval) (x : Transition Advertiser Event (List Effect))
    (hx : Step E I outOfRange x) (hpre : x.pre.Phase I) : x.post.Phase I := by
  rcases hpre with hpre | hpre
  · rcases hpre.step hx with ⟨-, hpost⟩ | ⟨hpost, -⟩
    · exact .inr (hpost hI)
    · exact .inl hpost
  · exact .inr (advertises_step x hx hpre)

/-- A node advertises from Start on. -/
theorem advertises_of_start (hI : 0 ≤ I.gsInterval) (hs : s.Phase I)
    (h : Run (Step E I outOfRange) s tr u) (hstart : ∃ x ∈ tr, x.event = .start) :
    u.Advertises I := by
  obtain ⟨x, hx, hevent⟩ := hstart
  refine h.invariant_of_mem advertises_step x hx ?_
  have hstep := h.step_of_mem x hx
  rcases (h.invariant (phase_step hI) hs).2 x hx with hpre | hpre
  · rcases hpre.step hstep with ⟨-, hpost⟩ | ⟨-, -, hne, -⟩
    · exact hpost hI
    · exact absurd hevent hne
  · exact advertises_step x hstep hpre

theorem start_once (hI : 0 ≤ I.gsInterval) (hs : s.Phase I)
    (h : Run (Step E I outOfRange) s tr u) :
    tr.Pairwise fun x y => ¬ (x.event = .start ∧ y.event = .start) := by
  refine h.pairwise_not_of (P := fun x => x.event = .start) (phase_step hI) advertises_step
    (fun x hx hstart hpre => ?_) (fun x hx hstart hpre => ?_) hs
  · rcases hpre with hpre | hpre
    · rcases hpre.step hx with ⟨-, hpost⟩ | ⟨-, -, hne, -⟩
      · exact hpost hI
      · exact absurd hstart hne
    · exact advertises_step x hx hpre
  · exact hpre.ne_start hx hstart

/-- Only the timer of the role makes a node advertise. -/
theorem own_of_advertises (hI : 0 ≤ I.gsInterval) (hs : s.Phase I)
    (h : Run (Step E I outOfRange) s tr u) :
    ∀ x ∈ tr, x.event.advertises = true → x.event = s.ownEvent := by
  refine h.forall_transition (I := fun r => s.SameRole r ∧ r.Phase I)
    (fun x hx hpre => ⟨hpre.1.trans (Does.sameRole hx), phase_step hI x hx hpre.2⟩)
    (fun x hx hpre hevent => ?_) ⟨⟨rfl, rfl⟩, hs⟩
  rcases hpre.2 with hnew | hadvertises
  · rcases hnew.step hx with ⟨hstart, -⟩ | ⟨-, hne, -⟩
    · rw [hstart] at hevent
      cases hevent
    · rw [hne] at hevent
      cases hevent
  · rcases (hadvertises.step hx).2 with ⟨hown, -⟩ | ⟨hne, -⟩
    · rw [hown, hpre.1.ownEvent]
    · rw [hne] at hevent
      cases hevent

/-- How many expiries a run has after which the node advertises. -/
def advertisements (tr : List (Transition Advertiser Event (List Effect))) : ℕ :=
  tr.countP fun x => x.event.advertises

theorem advertisements_cons (x : Transition Advertiser Event (List Effect))
    (tr : List (Transition Advertiser Event (List Effect))) :
    advertisements (x :: tr) = advertisements tr + if x.event.advertises then 1 else 0 :=
  List.countP_cons

/-- Each expiry of the timer of the role moves the next one by the interval of the role, half an
interval of the HELLO messages more or less. -/
theorem expiry_run (h : Run (Step E I outOfRange) s tr u) (hs : s.Advertises I) :
    ∃ x y, s.ownTimer = ⟨true, some x⟩ ∧ u.ownTimer = ⟨true, some y⟩ ∧
      advertisements tr * (2 * s.ownInterval I - I.helloInterval) ≤ 2 * (y - x) ∧
      2 * (y - x) ≤
        advertisements tr * (2 * s.ownInterval I + I.helloInterval) := by
  induction h with
  | nil s =>
    obtain ⟨expiry, hwaits⟩ := hs.waits
    exact ⟨expiry, expiry, hwaits.own, hwaits.own, by simp [advertisements],
      by simp [advertisements]⟩
  | @cons s u x tr hpre hstep hrest ih =>
    subst hpre
    obtain ⟨hpost, hcase⟩ := hs.step hstep
    obtain ⟨y, z, hy, hz, hlow, hhigh⟩ := ih hpost
    rw [(Does.sameRole hstep).ownInterval] at hlow hhigh
    rcases hcase with ⟨hevent, hrearms⟩ | ⟨hevent, hown, -⟩
    · obtain ⟨delay, hnext, -, hl, hh⟩ := hrearms.next
      rw [hnext] at hy
      cases hy
      have hadvertises : x.event.advertises = true := by
        rw [hevent]
        exact advertises_ownEvent x.pre
      refine ⟨x.pre.now, z, hrearms.own, hz, ?_, ?_⟩ <;>
        rw [advertisements_cons, if_pos hadvertises] <;> push_cast <;> linarith
    · have hcount : advertisements (x :: tr) = advertisements tr := by
        rw [advertisements_cons, hevent]
        rfl
      rw [hcount]
      exact ⟨y, z, by rw [← hown, hy], hz, hlow, hhigh⟩

/-! ### The authentication timer -/

/-- What a step makes of the timer of the authentication: Start may schedule it, and its expiry
stops it. -/
theorem Does.authenticates (h : Does E I outOfRange s e t es) :
    (e = .start ∧ (s.node.isGroundStation = true ∨ s.node.securityState = false →
      t.authenticationTimer = s.authenticationTimer)) ∨
    (e = .authenticationTimer ∧ s.authenticationTimer.expiry ≠ none ∧
      t.authenticationTimer.expiry = none) ∨
    (e ≠ .authenticationTimer ∧ t.authenticationTimer = s.authenticationTimer ∧
      ∀ expiry, s.authenticationTimer.expiry = some expiry → s.now ≤ expiry → t.now ≤ expiry) := by
  cases h with
  | advance _ htimers => 
    exact .inr (.inr ⟨Event.noConfusion, rfl, fun expiry h _ => htimers _ (by simp) expiry h⟩)
  | start _ _ _ h =>
    obtain ⟨-, -, hground, hairborne⟩ := start_ok h
    refine .inl ⟨rfl, fun hrole => ?_⟩
    cases hgs : s.node.isGroundStation with
    | true => exact (hground hgs).2.2
    | false =>
      have hplain : s.node.securityState = false := by
        rw [hgs] at hrole
        simpa using hrole
      have htimer := (hairborne hgs).2.2
      rwa [hplain, if_neg Bool.false_ne_true] at htimer
  | helloTimer _ _ h =>
    obtain ⟨-, -, rfl⟩ := helloTimerExpire_ok h
    exact .inr (.inr ⟨Event.noConfusion, rfl, fun _ _ h => h⟩)
  | gsTimer _ _ h =>
    obtain ⟨-, -, rfl⟩ := gsTimerExpire_ok h
    exact .inr (.inr ⟨Event.noConfusion, rfl, fun _ _ h => h⟩)
  | authenticationTimer hdue h =>
    obtain ⟨-, rfl⟩ := authenticationTimerExpire_ok h
    exact .inr (.inl ⟨rfl, by rw [hdue]; exact Option.some_ne_none _, rfl⟩)
  | call => exact .inr (.inr ⟨Event.noConfusion, rfl, fun _ _ h => h⟩)

/-- The timer of the authentication has expired, or was never set. -/
def Silent (I : Intervals) (s : Advertiser) : Prop :=
  s.Advertises I ∧ s.authenticationTimer.expiry = none

theorem silent_step (x : Transition Advertiser Event (List Effect))
    (hx : Step E I outOfRange x) (hpre : x.pre.Silent I) : x.post.Silent I := by
  refine ⟨advertises_step x hx hpre.1, ?_⟩
  rcases Does.authenticates hx with ⟨hstart, -⟩ | ⟨-, -, hnone⟩ | ⟨-, htimer, -⟩
  · exact absurd hstart (hpre.1.ne_start hx)
  · exact hnone
  · rw [htimer, hpre.2]

theorem authentication_once (hI : 0 ≤ I.gsInterval) (hs : s.Phase I)
    (h : Run (Step E I outOfRange) s tr u) :
    tr.Pairwise fun x y => ¬ (x.event = .authenticationTimer ∧ y.event = .authenticationTimer) := by
  refine h.pairwise_not_of (P := fun x => x.event = .authenticationTimer) (J := Silent I)
    (phase_step hI) silent_step (fun x hx hevent hpre => ?_) (fun x hx hevent hpre => ?_) hs
  · rcases hpre with hpre | hpre
    · rcases hpre.step hx with ⟨hne, -⟩ | ⟨-, -, -, hne⟩
      · rw [hevent] at hne
        cases hne
      · exact absurd hevent hne
    · rcases Does.authenticates hx with ⟨hne, -⟩ | ⟨-, -, hnone⟩ | ⟨hne, -⟩
      · rw [hevent] at hne
        cases hne
      · exact ⟨advertises_step x hx hpre, hnone⟩
      · exact absurd hevent hne
  · rcases Does.authenticates hx with ⟨hne, -⟩ | ⟨-, hdue, -⟩ | ⟨hne, -⟩
    · rw [hevent] at hne
      cases hne
    · exact hdue hpre.2
    · exact hne hevent

/-- A node that does not authenticate itself: its timer for it never runs. -/
def Mute (s : Advertiser) : Prop :=
  (s.node.isGroundStation = true ∨ s.node.securityState = false) ∧
    s.authenticationTimer.expiry = none

theorem mute_step (x : Transition Advertiser Event (List Effect)) (hx : Step E I outOfRange x)
    (hpre : x.pre.Mute) : x.post.Mute := by
  have hrole := Does.sameRole hx
  refine ⟨by rw [hrole.isGroundStation, hrole.securityState]; exact hpre.1, ?_⟩
  rcases Does.authenticates hx with ⟨-, htimer⟩ | ⟨-, -, hnone⟩ | ⟨-, htimer, -⟩
  · rw [htimer hpre.1, hpre.2]
  · exact hnone
  · rw [htimer, hpre.2]

/-- The timer of the authentication runs, and expires at the deadline at the latest. -/
def Asks (I : Intervals) (deadline : Time) (s : Advertiser) : Prop :=
  s.Advertises I ∧ ∃ expiry, s.authenticationTimer.expiry = some expiry ∧ s.now ≤ expiry ∧
    expiry ≤ deadline

theorem asks_step {deadline : Time} (x : Transition Advertiser Event (List Effect))
    (hx : Step E I outOfRange x) (hne : x.event ≠ .authenticationTimer)
    (hpre : x.pre.Asks I deadline) : x.post.Asks I deadline := by
  obtain ⟨hadvertises, expiry, hexpiry, hnow, hle⟩ := hpre
  refine ⟨advertises_step x hx hadvertises, ?_⟩
  rcases Does.authenticates hx with ⟨hstart, -⟩ | ⟨hevent, -⟩ | ⟨-, htimer, hmono⟩
  · exact absurd hstart (hadvertises.ne_start hx)
  · exact absurd hevent hne
  · exact ⟨expiry, by rw [htimer, hexpiry], hmono expiry hexpiry hnow, hle⟩

/-- Start in secure mode makes an airborne node ask for its authentication. -/
theorem New.asks_start (hI : 0 ≤ I.gsInterval) (hs : New s)
    (hgs : s.node.isGroundStation = false) (hsecure : s.node.securityState = true)
    (h : Does E I outOfRange s .start t es) : t.Asks I (s.now + I.authenticationInterval) := by
  cases h with
  | start hfirst _ hauth h =>
    obtain ⟨-, hnow, -, hairborne⟩ := start_ok h
    have hschedule := (hairborne hgs).2.2
    rw [if_pos hsecure] at hschedule
    obtain ⟨-, h0, htimer⟩ := Timer.schedule_ok hschedule
    refine ⟨hs.advertises_start hI hfirst h, _, by rw [htimer], ?_, ?_⟩
    · linarith
    · linarith [hauth.2]

/-- An airborne node in secure mode asks for its authentication once, an interval after Start at
the latest; no other node does. -/
theorem authentication_requested (hI : 0 ≤ I.gsInterval) (hs : New s)
    (h : Run (Step E I outOfRange) s tr u) :
    (tr.Pairwise fun x y => ¬ (x.event = .authenticationTimer ∧ y.event = .authenticationTimer)) ∧
    (s.node.isGroundStation = true ∨ s.node.securityState = false →
      ∀ x ∈ tr, x.event ≠ .authenticationTimer) ∧
    (s.node.isGroundStation = false → s.node.securityState = true →
      ∀ x ∈ tr, x.event = .start → x.pre.now + I.authenticationInterval < u.now →
        ∃ y ∈ tr, y.event = .authenticationTimer) := by
  refine ⟨authentication_once hI (.inl hs) h, fun hrole x hx hevent => ?_,
    fun hgs hsecure x hx hstart hlate => ?_⟩
  · have hmute := (h.invariant mute_step ⟨hrole, by rw [hs.authenticationTimer]⟩).2 x hx
    rcases Does.authenticates (h.step_of_mem x hx) with ⟨hne, -⟩ | ⟨-, hdue, -⟩ | ⟨hne, -⟩
    · rw [hevent] at hne
      cases hne
    · exact hdue hmute.2
    · exact hne hevent
  · by_contra! hnever
    obtain ⟨tr₁, tr₂, rfl, h₁, h₂⟩ := h.exists_split hx
    have hstep := h.step_of_mem x hx
    have hrole : s.SameRole x.pre :=
      (h₁.invariant (I := s.SameRole) (fun _ hx hpre => hpre.trans (Does.sameRole hx))
        ⟨rfl, rfl⟩).1
    have hnew : New x.pre := by
      rcases (h₁.invariant (phase_step hI) (.inl hs)).1 with hnew | hadvertises
      · exact hnew
      · exact absurd hstart (hadvertises.ne_start hstep)
    rw [Step, hstart] at hstep
    have hasks := hnew.asks_start hI (hrole.isGroundStation.trans hgs)
      (hrole.securityState.trans hsecure) hstep
    obtain ⟨⟨-, expiry, -, hnow, hle⟩, -⟩ := h₂.invariant_of asks_step
      (fun y hy => hnever y (List.mem_append_right _ (List.mem_cons_of_mem _ hy))) hasks
    linarith

/-! ### Advertisements -/

/-- No jitter reaches back over the interval if the earliest does not. -/
theorem forall_jitter_iff {hello interval : ℤ} (h : 0 ≤ hello) :
    (∀ jitter : ℤ, -hello ≤ 2 * jitter ∧ 2 * jitter ≤ hello → 0 ≤ interval + jitter) ↔
      hello ≤ 2 * interval + 1 := by
  constructor
  · intro hall
    have hdelay := hall (-(hello / 2)) (by omega)
    omega
  · intro hle jitter hjitter
    omega

/-- The timer of the ground station is scheduled again unless its delay is in the past. -/
theorem exists_gsTimerExpire_iff (h : s.gsTimer.hasFunction = true) (god : GodGroundStation)
    (attackState : Bool) (nodes : List Ipv4Address) (jitter : Time) :
    (∃ t es, s.gsTimerExpire I outOfRange god attackState nodes jitter = .ok (t, es)) ↔
      0 ≤ I.gsInterval + jitter := by
  constructor
  · rintro ⟨t, es, hok⟩
    exact (gsTimerExpire_ok hok).1
  · intro hdelay
    have htimer : s.gsTimer.expired.cancel.schedule s.now (I.gsInterval + jitter) = _ :=
      Timer.schedule_eq h rfl hdelay
    rw [gsTimerExpire, htimer]
    exact ⟨_, _, rfl⟩

/-- A delay of the timer of the HELLO messages is never in the past, whatever the jitter. One of
the ground station's timer may be, if its interval is shorter than the jitters. -/
theorem advertises_forever (hI : 0 ≤ I.gsInterval) (hs : New s)
    (h : Run (Step E I outOfRange) s tr t) :
    (tr.Pairwise fun x y => ¬ (x.event = .start ∧ y.event = .start)) ∧
    (∀ x ∈ tr, x.event.advertises = true → x.event = s.ownEvent) ∧
    ((∃ x ∈ tr, x.event = .start) →
      (∃ expiry, t.ownTimer = ⟨true, some expiry⟩ ∧ t.now ≤ expiry ∧
        2 * (expiry - t.now) ≤ 2 * t.ownInterval I + I.helloInterval) ∧
      t.otherTimer.expiry = none ∧
      (t.node.isGroundStation = false → ∀ jitter, I.IsJitter jitter →
        ∃ u es, t.helloTimerExpire I outOfRange jitter = .ok (u, es)) ∧
      (t.node.isGroundStation = true → ∀ god attackState nodes,
        (∀ jitter, I.IsJitter jitter →
          ∃ u es, t.gsTimerExpire I outOfRange god attackState nodes jitter = .ok (u, es)) ↔
        I.helloInterval ≤ 2 * I.gsInterval + 1)) := by
  refine ⟨start_once hI (.inl hs) h, own_of_advertises hI (.inl hs) h, fun hstart => ?_⟩
  have hadvertises := advertises_of_start hI (.inl hs) h hstart
  obtain ⟨expiry, hwaits⟩ := hadvertises.waits
  have hown := hwaits.own
  have hinterval := hadvertises.helloInterval
  refine ⟨⟨expiry, hown, hwaits.le, hwaits.soon⟩, hadvertises.other, fun hgs jitter hjitter => ?_,
    fun hgs god attackState nodes => ?_⟩
  · rw [ownTimer, hgs, if_neg Bool.false_ne_true] at hown
    rw [helloTimerExpire_eq, Timer.schedule_eq (by rw [hown]; rfl) rfl (by linarith [hjitter.1])]
    exact ⟨_, _, rfl⟩
  · rw [ownTimer, if_pos hgs] at hown
    have hfunction : t.gsTimer.hasFunction = true := by rw [hown]
    simp only [exists_gsTimerExpire_iff hfunction]
    exact forall_jitter_iff hinterval

/-- However long a node has run, it advertises at the rate of its interval, and not faster than
the shortest delays. -/
theorem advertisement_rate (hI : 0 ≤ I.gsInterval) (hs : New s)
    (h : Run (Step E I outOfRange) s tr t) (hstart : ∃ x ∈ tr, x.event = .start)
    {tr' : List (Transition Advertiser Event (List Effect))}
    (h' : Run (Step E I outOfRange) t tr' u) :
    advertisements tr' * (2 * t.ownInterval I - I.helloInterval) ≤
      2 * (u.now - t.now) + (2 * t.ownInterval I + I.helloInterval) ∧
    2 * (u.now - t.now) ≤
      (advertisements tr' + 1) * (2 * t.ownInterval I + I.helloInterval) := by
  have hadvertises := advertises_of_start hI (.inl hs) h hstart
  obtain ⟨x, y, hx, hy, hlow, hhigh⟩ := expiry_run h' hadvertises
  obtain ⟨hend, -⟩ := h'.invariant advertises_step hadvertises
  obtain ⟨x', hwaits⟩ := hadvertises.waits
  obtain ⟨y', hwaits'⟩ := hend.waits
  have hrole : t.SameRole u :=
    (h'.invariant (I := t.SameRole) (fun _ hx hpre => hpre.trans (Does.sameRole hx)) ⟨rfl, rfl⟩).1
  have hsame : x' = x := by
    have hown := hwaits.own
    rw [hx] at hown
    cases hown
    rfl
  have hsame' : y' = y := by
    have hown := hwaits'.own
    rw [hy] at hown
    cases hown
    rfl
  subst hsame hsame'
  have hle := hwaits.le
  have hsoon := hwaits.soon
  have hle' := hwaits'.le
  have hsoon' := hwaits'.soon
  rw [hrole.ownInterval] at hsoon'
  constructor <;> linarith

/-! ### A run of an airborne node -/

/-- Node 1 in secure mode before Start. -/
def unstarted : Advertiser := ⟨0, { Sample.node 1 with securityState := true }, {}, {}, {}⟩

def started : Advertiser :=
  ⟨0, Sample.secureNode 1, ⟨true, some (Time.milliSeconds 100)⟩, {},
    ⟨true, some (Time.milliSeconds 50)⟩⟩

def requesting : Advertiser := { started with now := Time.milliSeconds 50 }

def requested : Advertiser := { requesting with authenticationTimer := ⟨true, none⟩ }

def silent : Advertiser :=
  { requested with
    now := Time.milliSeconds 100
    helloIntervalTimer := ⟨true, some (Time.milliSeconds 1100)⟩ }

theorem unstarted_new : New unstarted := ⟨rfl, rfl, rfl⟩

theorem start_unstarted : Does Sample.env {} (fun _ => 0) unstarted .start started [] := by
  have hok : unstarted.start (Sample.credentials 1) (Sample.fill _ [1]) (Time.milliSeconds 100) 0
      (Time.milliSeconds 50) = .ok started := rfl
  exact .start (by decide) (by decide) (by decide) hok

theorem idle_secureNode {now : Time} (t : Time)
    (h : (Sample.secureNode 1).checkQueueTimer = some t) : now ≤ t := by
  cases h

theorem request_requesting : ∃ es, Does Sample.env {} (fun _ => 0) requesting
    .authenticationTimer requested es := by
  have hcredentials : requesting.node.credentials = some (Sample.credentials 1) := by
    simp [requesting, started]
  have hsend : ∃ es, requesting.node.sendAuthenticationRequestPacket Sample.env requesting.now
      Sample.chance = .ok es := by
    rw [Node.sendAuthenticationRequestPacket, hcredentials]
    exact ⟨_, rfl⟩
  obtain ⟨es, hsend⟩ := hsend
  have hok : requesting.authenticationTimerExpire Sample.env Sample.chance = .ok (requested, es) := by
    rw [authenticationTimerExpire, hsend]
    rfl
  exact ⟨es, .authenticationTimer rfl hok⟩

/-- The node asks for its authentication, and is not authenticated yet when the timer of the HELLO
messages expires. -/
theorem exists_run_started : ∃ tr, Run (Step Sample.env {} (fun _ => 0)) started tr silent ∧
    advertisements tr = 1 := by
  obtain ⟨es, hrequest⟩ := request_requesting
  have hwait : Does Sample.env {} (fun _ => 0) started (.advance (Time.milliSeconds 50))
      requesting [] := .advance (.advance (by decide) idle_secureNode) (by decide)
  have hwait' : Does Sample.env {} (fun _ => 0) requested (.advance (Time.milliSeconds 50))
      { requested with now := Time.milliSeconds 100 } [] :=
    .advance (.advance (by decide) idle_secureNode) (by decide)
  have hok : helloTimerExpire {} (fun _ => 0) 0 { requested with now := Time.milliSeconds 100 } =
      .ok (silent, _) := rfl
  have hhello : Does Sample.env {} (fun _ => 0) { requested with now := Time.milliSeconds 100 }
      .helloTimer silent _ := .helloTimer rfl (by decide) hok
  exact ⟨_, .cons (x := ⟨_, _, _, _⟩) rfl hwait (.cons (x := ⟨_, _, _, _⟩) rfl hrequest
    (.cons (x := ⟨_, _, _, _⟩) rfl hwait' (.single ⟨_, _, _, _⟩ hhello))), rfl⟩

theorem exists_run_unstarted : ∃ tr, Run (Step Sample.env {} (fun _ => 0)) unstarted
    (⟨unstarted, .start, [], started⟩ :: tr) silent ∧ advertisements tr = 1 := by
  obtain ⟨tr, hrun, hcount⟩ := exists_run_started
  exact ⟨tr, .cons rfl start_unstarted hrun, hcount⟩

theorem advertises_forever_sample :
    ∃ u es, silent.helloTimerExpire {} (fun _ => 0) (-Time.milliSeconds 500) = .ok (u, es) := by
  obtain ⟨tr, hrun, -⟩ := exists_run_unstarted
  exact ((advertises_forever (by decide) unstarted_new hrun).2.2 ⟨_, List.mem_cons_self, rfl⟩).2.2.1
    rfl _ (by decide)

theorem advertisement_rate_sample : ∃ n : ℕ, n = 1 ∧
    2 * silent.now ≤ (n + 1) * Time.milliSeconds 3000 := by
  obtain ⟨tr, hrun, hcount⟩ := exists_run_started
  have hstart : Run (Step Sample.env {} (fun _ => 0)) unstarted
      [⟨unstarted, .start, [], started⟩] started := .single ⟨_, _, _, _⟩ start_unstarted
  exact ⟨advertisements tr, hcount, (advertisement_rate (by decide) unstarted_new hstart
    ⟨_, List.mem_cons_self, rfl⟩ hrun).2⟩

theorem authentication_requested_sample :
    ∃ tr, Run (Step Sample.env {} (fun _ => 0)) unstarted tr silent ∧
      tr.Pairwise fun x y => ¬ (x.event = .authenticationTimer ∧ y.event = .authenticationTimer) := by
  obtain ⟨tr, hrun, -⟩ := exists_run_unstarted
  exact ⟨_, hrun, (authentication_requested (by decide) unstarted_new hrun).1⟩

end SAeroRP.Advertiser
