import SAeroRP.Tdma.Service
import SAeroRP.Tdma.System

/-! What happens in a grant of the whole system, when the layers above only enqueue
packets. From the beginning of a session until its last call of SendPacketDown the
frames on the channel are those of a course of the grant at its MAC. -/

namespace SAeroRP.Tdma

open Library TdmaCentralMac

/-- The layer above enqueues packets. -/
def Enqueues (t : Time) (q q' : TdmaMacQueue) : Prop := ∃ l, Arrives t t q l q'

variable {c : TdmaController} {s t u : Tdma} {now : Time} {mac : MacPtr} {q : TdmaMacQueue}
  {us : ℤ} {l : List Item} {tr : List (Transition Tdma Event (List Frame))}

/-- No session begins. -/
def Quiet (e : Event) : Prop := ∀ p, e ≠ .session p

/-- The MAC began with the queue `q` and `us` microseconds; a call is pending, and the
queue has taken the items `l` since. -/
structure Awaits (c : TdmaController) (mac : MacPtr) (now : Time) (q : TdmaMacQueue) (us : ℤ)
    (d : SendEvent) (l : List Item) (s : Tdma) : Prop where
  started : startTransmission c now us q = .ok (q.cleanup now, some d)
  sends : s.sends = [d.pending now mac]
  arrives : Arrives now s.now (q.cleanup now) l (s.queues mac)

/-- Without a pending call nothing is sent. -/
theorem idle_step {e : Event} {frames : List Frame} (h : Does c Enqueues s e t frames)
    (he : Quiet e) (hs : s.sends = []) : t.sends = [] ∧ frames = [] := by
  cases h with
  | advance | change => exact ⟨hs, rfl⟩
  | start =>
    unfold start
    split_ifs <;> exact ⟨hs, rfl⟩
  | session => exact absurd rfl (he _)
  | sendPacketDown hd =>
    rw [hs] at hd
    cases hd

theorem idle_run (hrun : Run (Step c Enqueues) s tr u) (htr : ∀ x ∈ tr, Quiet x.event)
    (hs : s.sends = []) : tr.flatMap Transition.out = [] := by
  induction hrun with
  | nil => rfl
  | @cons s u x tr hpre hstep _ ih =>
    subst hpre
    obtain ⟨hpost, hout⟩ := idle_step hstep (htr x List.mem_cons_self) hs
    rw [List.flatMap_cons, hout, ih (fun y hy => htr y (List.mem_cons_of_mem _ hy)) hpost]
    rfl

/-- Until the call is due there are only arrivals. -/
theorem awaits_step {d : SendEvent} {e : Event} {frames : List Frame}
    (h : Does c Enqueues s e t frames) (he : Quiet e) (hcall : ∀ d, e ≠ .sendPacketDown d)
    (hs : Awaits c mac now q us d l s) :
    frames = [] ∧ ∃ l', Awaits c mac now q us d (l ++ l') t := by
  cases h with
  | advance hdt =>
    have hlater := hs.arrives.trans (.nil _ (le_add_of_nonneg_right hdt))
    exact ⟨rfl, [], hs.started, hs.sends, hlater⟩
  | start =>
    refine ⟨rfl, [], ?_⟩
    rw [List.append_nil]
    unfold start
    split_ifs
    · exact hs
    · exact ⟨hs.started, hs.sends, hs.arrives⟩
  | session => exact absurd rfl (he _)
  | sendPacketDown => exact absurd rfl (hcall _)
  | @change mac' q' h =>
    refine ⟨rfl, ?_⟩
    by_cases hmac : mac = mac'
    · subst hmac
      obtain ⟨l', hl'⟩ := h
      refine ⟨l', hs.started, hs.sends, ?_⟩
      simp only [Function.update_self]
      exact hs.arrives.trans hl'
    · refine ⟨[], hs.started, hs.sends, ?_⟩
      rw [List.append_nil]
      simp only [Function.update_of_ne hmac]
      exact hs.arrives

/-- The call sends a frame; then no call is pending, or the next one. -/
theorem call_step {d : SendEvent} {d' : PendingSend} {frames : List Frame}
    (h : Does c Enqueues s (.sendPacketDown d') t frames) (hs : Awaits c mac now q us d l s) :
    s.now = now + d.delay ∧ ∃ frame q₂ l' q₃, frames = [frame] ∧
      sendPacketDown s.now (s.queues mac) = .ok (frame, q₂) ∧ Arrives s.now s.now q₂ l' q₃ ∧
      ((∃ q', startTransmission c s.now d.remainingTime.getMicroSeconds q₃ = .ok (q', none) ∧
          t.sends = []) ∨
        ∃ e, Awaits c mac s.now q₃ d.remainingTime.getMicroSeconds e [] t) := by
  cases h with
  | @sendPacketDown _ frame q₂ q₃ q' e hd hdue hframe hchange hsend =>
    rw [hs.sends] at hd
    obtain rfl := List.mem_singleton.mp hd
    obtain ⟨l', hl'⟩ := hchange
    refine ⟨hdue.symm, frame, q₂, l', q₃, rfl, hframe, hl', ?_⟩
    have hnone : s.sends.erase (d.pending now mac) = [] := by
      rw [hs.sends, List.erase_cons_head]
    cases e with
    | none => exact .inl ⟨q', hsend, by simp [hnone]⟩
    | some e =>
      obtain ⟨rfl, -⟩ := startTransmission_some hsend
      refine .inr ⟨e, hsend, by rw [hnone]; rfl, ?_⟩
      simp only [SendEvent.pending, Function.update_self]
      exact .nil _ le_rfl

/-- From a pending call on, the rest of the grant is the rest of a course. -/
theorem serves_of_awaits (hrun : Run (Step c Enqueues) s tr u) (htr : ∀ x ∈ tr, Quiet x.event)
    (hu : u.sends = []) {d : SendEvent} (hs : Awaits c mac now q us d l s) :
    ∃ l' sends, Serves c now q us (l ++ l') sends ∧
      sends.filterMap Send.frame = tr.flatMap Transition.out := by
  induction hrun generalizing now q us d l with
  | nil =>
    rw [hs.sends] at hu
    cases hu
  | @cons s u x tr hpre hstep hrest ih =>
    subst hpre
    have hquiet := htr x List.mem_cons_self
    have hrest' : ∀ y ∈ tr, Quiet y.event := fun y hy => htr y (List.mem_cons_of_mem _ hy)
    have hdoes : Does c Enqueues x.pre x.event x.post x.out := hstep
    rw [List.flatMap_cons]
    by_cases hcall : ∃ d', x.event = .sendPacketDown d'
    · obtain ⟨d', he⟩ := hcall
      rw [he] at hdoes
      obtain ⟨hnow, frame, q₂, l₁, q₃, hout, hsend, hqueueStart, hnext⟩ := call_step hdoes hs
      have harrives := hs.arrives
      rw [hnow] at harrives hsend hqueueStart hnext
      rw [hout]
      obtain ⟨q', hstop, hidle⟩ | ⟨e, hawaits⟩ := hnext
      · refine ⟨_, _, .send hs.started harrives hsend hqueueStart (.stop hstop), ?_⟩
        rw [idle_run hrest hrest' hidle]
        rfl
      · obtain ⟨l₂, sends, hserves, hframes⟩ := ih hrest' hu hawaits
        refine ⟨_, _, .send hs.started harrives hsend hqueueStart hserves, ?_⟩
        rw [← hframes]
        rfl
    · obtain ⟨hout, l₁, hawaits⟩ := awaits_step hdoes hquiet (not_exists.mp hcall) hs
      obtain ⟨l₂, sends, hserves, hframes⟩ := ih hrest' hu hawaits
      rw [List.append_assoc] at hserves
      exact ⟨l₁ ++ l₂, sends, hserves, by rw [hout, hframes]; rfl⟩

/-- The frames from the beginning of a session on, until no call is pending, are those of
a course of its grant. -/
theorem serves_of_session {p : Time × SessionEvent} {frames : List Frame}
    (h : Does c Enqueues s (.session p) t frames) (hs : s.sends = [])
    (hrun : Run (Step c Enqueues) t tr u) (htr : ∀ x ∈ tr, Quiet x.event) (hu : u.sends = []) :
    ∃ r arrived sends, c.scheduleTdmaSession p.2.slotNum = .ok r ∧
      Serves c s.now (s.queues r.mac) r.transmissionSlot.getMicroSeconds arrived sends ∧
      sends.filterMap Send.frame = tr.flatMap Transition.out := by
  cases h with
  | @session _ r q d hp hdue h hsend =>
    cases d with
    | none =>
      refine ⟨r, [], [], h, .stop hsend, ?_⟩
      rw [idle_run hrun htr (by simp [hs])]
      rfl
    | some d =>
      obtain ⟨rfl, -⟩ := startTransmission_some hsend
      have hawaits : Awaits c r.mac s.now (s.queues r.mac) r.transmissionSlot.getMicroSeconds d []
          { s with
            sessions := s.sessions.erase p ++ [(s.now + r.delay, r.next)]
            sends := s.sends ++ [d.pending s.now r.mac]
            queues := Function.update s.queues r.mac ((s.queues r.mac).cleanup s.now)
            granted := s.granted ++ [⟨r.mac, s.now, s.now + r.transmissionSlot⟩] } := by
        refine ⟨hsend, by rw [hs]; rfl, ?_⟩
        simp only [Function.update_self]
        exact .nil _ le_rfl
      obtain ⟨l, sends, hserves, hframes⟩ := serves_of_awaits hrun htr hu hawaits
      exact ⟨r, l, sends, h, hserves, hframes⟩

end SAeroRP.Tdma
