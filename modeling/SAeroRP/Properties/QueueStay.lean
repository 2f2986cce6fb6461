import SAeroRP.Properties.Timetable
import SAeroRP.Tdma.Course

/-! How long a packet stays in the queue of a MAC. Nothing is dropped when its delay has passed,
only when the queue is used next. A MAC that has a slot looks at its queue in every frame, so
what has expired stays for one frame more at most. -/

namespace SAeroRP

namespace TdmaCentralMac

variable {c : TdmaController} {now : Time} {us : ℤ} {q q' : TdmaMacQueue}

/-- StartTransmission leaves what Cleanup leaves. -/
theorem startTransmission_cleanup {d : Option SendEvent}
    (h : startTransmission c now us q = .ok (q', d)) : q' = q.cleanup now := by
  rw [startTransmission_eq] at h
  cases hq : (q.cleanup now).queue with
  | nil =>
    rw [hq] at h
    cases h
    rfl
  | cons i rest =>
    rw [hq] at h
    obtain ⟨t, -, h⟩ := bind_eq_ok.mp h
    cases h
    rfl

/-- What is in the queue after arrivals was there before or has just come. -/
theorem Arrives.mem {t₀ t₁ : Time} {l : List Item} (h : Arrives t₀ t₁ q l q') :
    ∀ i ∈ q'.queue, i ∈ q.queue ∨ t₀ ≤ i.tstamp := by
  induction h with
  | nil => exact fun i hi => .inl hi
  | @taken t₀ t t₁ q q₁ q'' l packet hdr h htaken hrest ih =>
    intro i hi
    obtain ⟨hqueue, -⟩ := TdmaMacQueue.enqueue_queue htaken
    rcases ih i hi with hmem | hle
    · rw [hqueue, List.mem_append, if_pos rfl, List.mem_singleton] at hmem
      rcases hmem with hold | rfl
      · exact .inl (TdmaMacQueue.mem_cleanup.mp hold).1
      · exact .inr h
    · exact .inr (h.trans hle)
  | @refused t₀ t t₁ q q₁ q'' l packet hdr h hrefused hrest ih =>
    intro i hi
    obtain ⟨hqueue, -⟩ := TdmaMacQueue.enqueue_queue hrefused
    rcases ih i hi with hmem | hle
    · rw [hqueue, if_neg (by decide), List.append_nil] at hmem
      exact .inl (TdmaMacQueue.mem_cleanup.mp hmem).1
    · exact .inr (h.trans hle)

end TdmaCentralMac

namespace Tdma

open Library TdmaCentralMac

variable {c : TdmaController} {l : List Session} {t₀ : Time} {s t u : Tdma} {mac : MacPtr}
  {delay : Time} {tr : List (Transition Tdma Event (List Frame))}

/-- Whatever had expired at the last grant of the MAC has left its queue. -/
structure Purged (mac : MacPtr) (delay : Time) (s : Tdma) : Prop where
  maxDelay : (s.queues mac).maxDelay = delay
  started : ∀ g ∈ s.granted, g.start ≤ s.now
  purged : ∀ g ∈ s.granted, g.mac = mac → ∀ i ∈ (s.queues mac).queue, g.start ≤ i.tstamp + delay

/-- A queue that only lost items and gained new ones. -/
theorem Purged.update (hdelay : 0 ≤ delay) (hs : Purged mac delay s) {mac' : MacPtr}
    {q : TdmaMacQueue} (hmax : q.maxDelay = (s.queues mac').maxDelay)
    (hq : ∀ i ∈ q.queue, i ∈ (s.queues mac').queue ∨ s.now ≤ i.tstamp) (sends : List PendingSend) :
    Purged mac delay { s with sends := sends, queues := Function.update s.queues mac' q } := by
  by_cases hmac : mac = mac'
  · subst hmac
    refine ⟨?_, hs.started, fun g hg heq i hi => ?_⟩
    · simpa [hmax] using hs.maxDelay
    · simp only [Function.update_self] at hi
      rcases hq i hi with hold | hnew
      · exact hs.purged g hg heq i hold
      · have := hs.started g hg
        linarith
  · refine ⟨?_, hs.started, ?_⟩
    · simpa only [Function.update_of_ne hmac] using hs.maxDelay
    · simpa only [Function.update_of_ne hmac] using hs.purged

theorem purged_session (hs : Purged mac delay s) {r : Session} {q : TdmaMacQueue}
    {d : Option SendEvent} (hsend : startTransmission c s.now r.transmissionSlot.getMicroSeconds
      (s.queues r.mac) = .ok (q, d)) (sessions : List (Time × SessionEvent))
    (sends : List PendingSend) :
    Purged mac delay { s with
      sessions := sessions
      sends := sends
      queues := Function.update s.queues r.mac q
      granted := s.granted ++ [⟨r.mac, s.now, s.now + r.transmissionSlot⟩] } := by
  have hclean := startTransmission_cleanup hsend
  refine ⟨?_, fun g hg => ?_, fun g hg heq i hi => ?_⟩
  · by_cases hmac : mac = r.mac
    · subst hmac
      simpa [hclean] using hs.maxDelay
    · simpa only [Function.update_of_ne hmac] using hs.maxDelay
  · rcases List.mem_append.mp hg with hg | hg
    · exact hs.started g hg
    · rw [List.mem_singleton.mp hg]
  · by_cases hmac : mac = r.mac
    · subst hmac
      simp only [Function.update_self, hclean] at hi
      obtain ⟨hold, hfresh⟩ := TdmaMacQueue.mem_cleanup.mp hi
      rw [TdmaMacQueue.Fresh, hs.maxDelay] at hfresh
      rcases List.mem_append.mp hg with hg | hg
      · exact hs.purged g hg heq i hold
      · rw [List.mem_singleton.mp hg]
        exact hfresh.le
    · simp only [Function.update_of_ne hmac] at hi
      rcases List.mem_append.mp hg with hg | hg
      · exact hs.purged g hg heq i hi
      · rw [List.mem_singleton.mp hg] at heq
        exact absurd heq.symm hmac

theorem purged_step (hdelay : 0 ≤ delay) {e : Event} {frames : List Frame}
    (h : Does c Enqueues s e t frames) (hs : Purged mac delay s) : Purged mac delay t := by
  cases h with
  | advance hdt hsessions hsends =>
    refine { hs with started := fun g hg => ?_ }
    have := hs.started g hg
    simp only
    linarith
  | start =>
    unfold start
    split_ifs
    · exact hs
    · exact { hs with }
  | session hp hdue h hsend => exact purged_session hs hsend _ _
  | @sendPacketDown d _ _ _ _ _ hd hdue h hchange hsend =>
    obtain ⟨l, harrives⟩ := hchange
    obtain ⟨i, rest, hqueue, -, hrest, hmax⟩ := sendPacketDown_ok h
    have hclean := startTransmission_cleanup hsend
    refine hs.update hdelay ?_ (fun i' hi' => ?_) _
    · rw [hclean, TdmaMacQueue.maxDelay_cleanup, harrives.maxDelay, hmax]
    · rw [hclean] at hi'
      refine (harrives.mem i' (TdmaMacQueue.mem_cleanup.mp hi').1).imp (fun hmem => ?_) id
      have hkept : i' ∈ ((s.queues d.mac).cleanup s.now).queue := by
        rw [hqueue]
        exact List.mem_cons_of_mem _ (hrest ▸ hmem)
      exact (TdmaMacQueue.mem_cleanup.mp hkept).1
  | change h =>
    obtain ⟨l, harrives⟩ := h
    exact hs.update hdelay harrives.maxDelay harrives.mem s.sends

theorem Idle.purged (hs : s.Idle) : Purged mac (s.queues mac).maxDelay s := by
  constructor
  all_goals simp [hs.granted]

/-- In every run in which the layers above enqueue packets, once the first frame has passed, no
packet stays in the queue of a MAC that has a slot for longer than the maximal delay and a
frame. -/
theorem queued_at_most_delay_and_frame (c : TdmaController) (hc : c.Filled) (l : List Session)
    (hl : c.Frame 0 l) (s u : Tdma) (tr : List (Transition Tdma Event (List Frame)))
    (hrun : Run (Step c Enqueues) s tr u) (hs : s.Idle) (x : Transition Tdma Event (List Frame))
    (hx : x ∈ tr) (hstart : x.event = .start) (hfirst : x.pre.activeEpoch = false)
    (hlater : x.pre.now + 10 + frameTime c l < u.now) (j : ℕ) (mac : MacPtr)
    (hmac : c.slotPtrs[j]? = some mac) (hdelay : 0 ≤ (s.queues mac).maxDelay) :
    ∀ i ∈ (u.queues mac).queue,
      u.now - i.tstamp ≤ (s.queues mac).maxDelay + frameTime c l := by
  have hj : j < c.totalSlotsAllowed := (hc.isSome_iff j).mp (by rw [hmac]; rfl)
  obtain ⟨r, hr, -, -, hrmac⟩ := exists_session_of_slot hl hj
  obtain rfl : mac = r.mac := Option.some.inj (hmac.symm.trans hrmac)
  obtain ⟨g, hg, hgmac, -, -, hrecent⟩ :=
    (onTimetable_run hc hl hrun hs hx hstart hfirst).exists_grant hl hr hlater
  have hpurged := (hrun.invariant (fun _ hy => purged_step hdelay hy) hs.purged).1
  intro i hi
  have hfresh := hpurged.purged g hg hgmac i hi
  linarith

/-! ### Packets of which a slot takes only one -/

/-- A packet of 1400 bytes that came after the first session had begun. -/
def longItem (uid : UInt64) : Item :=
  ⟨⟨List.replicate 1400 0, uid, false⟩, Sample.macHeader 0, 10 + Time.microSeconds 10⟩

theorem calculateTxTime_longItem (uid : UInt64) :
    twoSlots.calculateTxTime (longItem uid).packet = .ok 1018181 := by
  have hsize : (longItem uid).packet.getSize = 1400 := List.length_replicate
  rw [TdmaController.calculateTxTime, hsize, if_pos (by decide)]
  rfl

/-- They do not expire in the first ten seconds. -/
theorem longItem_fresh {now : Time} (hnow : now < Time.seconds 10) (uids : List UInt64) :
    ∀ i ∈ uids.map longItem, now < i.tstamp + Time.seconds 10 := by
  intro i hi
  obtain ⟨uid, -, rfl⟩ := List.mem_map.mp hi
  exact hnow.trans (show Time.seconds 10 < 10 + Time.microSeconds 10 + Time.seconds 10 by decide)

def longQueue (uids : List UInt64) : TdmaMacQueue := Sample.queueOf (uids.map longItem)

/-- The first of them is sent if there is time for it. -/
theorem startTransmission_longQueue {now : Time} (hnow : now < Time.seconds 10) (us : ℤ)
    (uid : UInt64) (uids : List UInt64) :
    startTransmission twoSlots now us (longQueue (uid :: uids)) =
      .ok (longQueue (uid :: uids), if 1018181 < Time.microSeconds us then
        some ⟨1018181, Time.microSeconds us - 1018181, longItem uid⟩ else none) :=
  Sample.startTransmission_queueOf (longItem_fresh hnow (uid :: uids)) (calculateTxTime_longItem uid) us

/-- The call for the first of them, when a slot has begun. -/
def longSend (uid : UInt64) : SendEvent := ⟨1018181, Time.microSeconds 1100 - 1018181, longItem uid⟩

/-- They wait at the first MAC, and a session event is pending. -/
def holding (uids : List UInt64) (now : Time) (p : Time × SessionEvent) (granted : List Grant) : Tdma :=
  { expecting now p granted with queues := Function.update (fun _ => {}) 0 (longQueue uids) }

variable {change : Time → TdmaMacQueue → TdmaMacQueue → Prop} {uids : List UInt64} {now : Time}
  {p : Time × SessionEvent} {r : Session}

variable (change uids) in
/-- A session of the other MAC changes nothing. -/
theorem holding_pass (hlater : now ≤ p.1) (h : twoSlots.scheduleTdmaSession p.2.slotNum = .ok r)
    (hmac : r.mac ≠ 0) (granted : List Grant) :
    ∃ tr, Run (Step twoSlots change) (holding uids now p granted) tr (holding uids p.1
      (p.1 + r.delay, r.next) (granted ++ [⟨r.mac, p.1, p.1 + r.transmissionSlot⟩])) := by
  have hempty : ((holding uids now p granted).queues r.mac).queue = [] := by
    simp [holding, Function.update_of_ne hmac]
  obtain ⟨tr, hrun⟩ := session_run change (s := holding uids now p granted) rfl rfl hlater h
    (startTransmission_of_empty hempty)
  rw [Function.update_eq_self] at hrun
  exact ⟨tr, hrun⟩

/-- The first of them is about to be sent. -/
def longSending (uid : UInt64) (uids : List UInt64) (t : Time) (granted : List Grant) : Tdma :=
  { holding (uid :: uids) t (t + Time.microSeconds 1200, .scheduleTdmaSession 1) granted with
    sends := [(longSend uid).pending t 0] }

theorem holding_session (hlater : now ≤ p.1)
    (h : twoSlots.scheduleTdmaSession p.2.slotNum = .ok firstSession) (hnow : p.1 < Time.seconds 10)
    (uid : UInt64) (granted : List Grant) :
    ∃ tr, Run (Step twoSlots change) (holding (uid :: uids) now p granted) tr
      (longSending uid uids p.1 (granted ++ [⟨0, p.1, p.1 + Time.microSeconds 1100⟩])) := by
  have hqueue : (holding (uid :: uids) now p granted).queues 0 = longQueue (uid :: uids) := rfl
  have hslot : startTransmission twoSlots p.1 1100 (longQueue (uid :: uids)) =
      .ok (longQueue (uid :: uids), some (longSend uid)) := startTransmission_longQueue hnow 1100 uid uids
  rw [← hqueue] at hslot
  obtain ⟨tr, hrun⟩ := session_run change rfl rfl hlater h hslot
  rw [show firstSession.mac = 0 from rfl, Function.update_eq_self] at hrun
  exact ⟨tr, hrun⟩

/-- When it is sent, what remains of the slot is not enough for another. -/
theorem longSending_send (hchange : ∀ now q, change now q q) (t : Time)
    (hnow : t + 1018181 < Time.seconds 10) (uid : UInt64) (granted : List Grant) :
    ∃ tr, Run (Step twoSlots change) (longSending uid uids t granted) tr (holding uids (t + 1018181)
      (t + Time.microSeconds 1200, .scheduleTdmaSession 1) granted) := by
  have hdown := Sample.sendPacketDown_queueOf (longItem_fresh hnow (uid :: uids))
  have hrest : startTransmission twoSlots (t + 1018181) 81 (longQueue uids) =
      .ok (longQueue uids, none) := by
    cases uids with
    | nil => exact startTransmission_of_empty rfl
    | cons uid' uids => exact startTransmission_longQueue hnow 81 uid' uids
  have hle : t ≤ t + 1018181 := le_add_of_nonneg_right (by decide)
  have hbefore : t + 1018181 ≤ t + Time.microSeconds 1200 := add_le_add_right (by decide) t
  obtain ⟨tr, hrun⟩ := send_run hchange (s := longSending uid uids t granted) rfl hle
    (fun p hp => by rwa [List.mem_singleton.mp hp]) hdown hrest
  have hqueues : Function.update (longSending uid uids t granted).queues 0 (longQueue uids) =
      Function.update (fun _ => {}) 0 (longQueue uids) := Function.update_idem ..
  rw [show ((longSend uid).pending t 0).mac = 0 from rfl, hqueues] at hrun
  exact ⟨tr, hrun⟩

variable (uids) in
/-- In a session of the first MAC the first packet is sent. -/
theorem holding_send (hchange : ∀ now q, change now q q) (hlater : now ≤ p.1)
    (h : twoSlots.scheduleTdmaSession p.2.slotNum = .ok firstSession)
    (hnow : p.1 + 1018181 < Time.seconds 10) (uid : UInt64) (granted : List Grant) :
    ∃ tr, Run (Step twoSlots change) (holding (uid :: uids) now p granted) tr
      (holding uids (p.1 + 1018181) (p.1 + Time.microSeconds 1200, .scheduleTdmaSession 1)
        (granted ++ [⟨0, p.1, p.1 + Time.microSeconds 1100⟩])) := by
  obtain ⟨tr, hsession⟩ := holding_session hlater h (by linarith) uid granted
  obtain ⟨tr', hsend⟩ := longSending_send hchange p.1 hnow uid
    (granted ++ [⟨0, p.1, p.1 + Time.microSeconds 1100⟩])
  exact ⟨_, hsession.append hsend⟩

theorem enqueues_self (now : Time) (q : TdmaMacQueue) : Enqueues now q q := ⟨[], .nil q le_rfl⟩

/-- Two packets have come to the first MAC, in whose first session there was nothing to send. -/
def twoCame : Tdma :=
  holding [1, 2] (10 + Time.microSeconds 10) (10 + Time.microSeconds 1200, .scheduleTdmaSession 1)
    [⟨0, 10, 10 + Time.microSeconds 1100⟩]

theorem twoCame_run : ∃ tr, Run (Step twoSlots Enqueues) still
    (⟨still, .start, [], still.start⟩ :: tr) twoCame := by
  obtain ⟨tr, hrun⟩ := exists_first_run Enqueues
  have hwait : Does twoSlots Enqueues inFirstFrame (.advance (Time.microSeconds 10))
      { inFirstFrame with now := 10 + Time.microSeconds 10 } [] :=
    .advance (by decide) (by decide) (by decide)
  have hone : TdmaMacQueue.enqueue (10 + Time.microSeconds 10) (longItem 2).packet
      (longItem 2).hdr (longQueue [1]) = (true, longQueue [1, 2]) := by
    rw [TdmaMacQueue.enqueue, longQueue, Sample.cleanup_queueOf (longItem_fresh (by decide) [1])]
    rfl
  have hcome : Does twoSlots Enqueues { inFirstFrame with now := 10 + Time.microSeconds 10 }
      (.change 0) twoCame [] := .change ⟨_, .taken le_rfl rfl (.taken le_rfl hone (.nil _ le_rfl))⟩
  have hrest : Run (Step twoSlots Enqueues) inFirstFrame _ twoCame :=
    .cons (x := ⟨_, _, _, _⟩) rfl hwait (.single ⟨_, _, _, _⟩ hcome)
  exact ⟨_, hrun.append hrest⟩

/-- In the second frame the first of them is sent, and the other waits on. -/
theorem oneLeft_run : ∃ tr granted, Run (Step twoSlots Enqueues) twoCame tr (holding [2]
    (10 + Time.microSeconds 2400 + 1018181) (10 + Time.microSeconds 3600, .scheduleTdmaSession 1)
    granted) := by
  have hbefore : 10 + Time.microSeconds 10 ≤ 10 + Time.microSeconds 1200 := by decide
  have hbefore' : 10 + Time.microSeconds 1200 ≤ 10 + Time.microSeconds 2400 := by decide
  obtain ⟨tr, hpass⟩ := holding_pass Enqueues [1, 2]
    (p := (10 + Time.microSeconds 1200, .scheduleTdmaSession 1)) hbefore secondSession_scheduled
    (by decide) [⟨0, 10, 10 + Time.microSeconds 1100⟩]
  obtain ⟨tr', hsend⟩ := holding_send [2] enqueues_self
    (p := (10 + Time.microSeconds 2400, .startTdmaSessions)) hbefore' firstSession_scheduled
    (by decide) 1 _
  exact ⟨_, _, hpass.append hsend⟩

/-- The second packet is in the queue for more than a frame. -/
theorem queued_at_most_delay_and_frame_sample : ∃ tr u, Run (Step twoSlots Enqueues) still tr u ∧
    longItem 2 ∈ (u.queues 0).queue ∧ Time.microSeconds 2400 < u.now - (longItem 2).tstamp ∧
      u.now - (longItem 2).tstamp ≤
        (still.queues 0).maxDelay + frameTime twoSlots [firstSession, secondSession] := by
  obtain ⟨tr, hrun⟩ := twoCame_run
  obtain ⟨tr', granted, hleft⟩ := oneLeft_run
  have hmem : longItem 2 ∈ ((holding [2] (10 + Time.microSeconds 2400 + 1018181)
      (10 + Time.microSeconds 3600, .scheduleTdmaSession 1) granted).queues 0).queue :=
    List.mem_singleton_self _
  have hlater : 10 + Time.microSeconds 2400 < 10 + Time.microSeconds 2400 + 1018181 := by decide
  have hlong : Time.microSeconds 2400 <
      10 + Time.microSeconds 2400 + 1018181 - (10 + Time.microSeconds 10) := by decide
  exact ⟨_, _, hrun.append hleft, hmem, hlong, queued_at_most_delay_and_frame twoSlots
    twoSlots_filled _ twoSlots_frame _ _ _ (hrun.append hleft) still_idle _ List.mem_cons_self rfl rfl
    hlater 0 0 rfl (by decide) _ hmem⟩

end Tdma

end SAeroRP
