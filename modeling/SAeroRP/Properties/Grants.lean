import SAeroRP.Tdma.Sample

/-! What is sent in a grant. StartTransmission looks at the first packet and takes its
transmission time from the grant; SendPacketDown dequeues when that time has passed. The
two get the same packet unless the packet expires in between. The time that is taken is
that of the packet; on the air it has a header and a trailer. -/

namespace SAeroRP.TdmaCentralMac

variable {c : TdmaController} {now t : Time} {us : ℤ} {q q' q₁ : TdmaMacQueue} {d : SendEvent}
  {l arrived : List Item} {sends : List Send}

/-! ### The packet that is sent -/

/-- Dequeue returns what was peeked unless that has expired. -/
theorem dequeue_eq_peeked_iff (h : startTransmission c now us q = .ok (q', some d))
    (harrives : Arrives now t q' l q₁) :
    (q₁.dequeue t).1 = some d.peeked ↔ q.Fresh t d.peeked := by
  obtain ⟨rfl, hhead, -⟩ := startTransmission_some h
  have hdelay : q₁.maxDelay = q.maxDelay := harrives.maxDelay
  rw [TdmaMacQueue.dequeue_fst]
  constructor
  · intro hd
    have hmem := List.mem_of_mem_head? hd
    exact (TdmaMacQueue.fresh_congr hdelay).mp (TdmaMacQueue.mem_cleanup.mp hmem).2
  · intro hfresh
    have hkept := harrives.head hhead hfresh
    exact TdmaMacQueue.head?_cleanup hkept ((TdmaMacQueue.fresh_congr hdelay).mpr hfresh)

/-- In any grant, whatever arrives: the packet that is dequeued is the one whose
transmission time was taken from the grant exactly when that packet has not been in the
queue for the maximal delay. -/
theorem sent_is_budgeted_iff (c : TdmaController) (now : Time) (q : TdmaMacQueue) (us : ℤ)
    (arrived : List Item) (sends : List Send) (h : Serves c now q us arrived sends) :
    ∀ s ∈ sends, s.dequeued = some s.budgeted ↔ s.time < s.budgeted.tstamp + q.maxDelay := by
  induction h with
  | stop =>
    intro s hs
    cases hs
  | fault =>
    intro s hs
    cases hs
  | null h harrives =>
    intro s hs
    rw [List.mem_singleton.mp hs]
    exact dequeue_eq_peeked_iff h harrives
  | @send now q q' q₁ q₂ q₃ us d frame l l' l'' sends h harrives hsend hqueueStart _ ih =>
    intro s hs
    rcases List.mem_cons.mp hs with rfl | hs
    · exact dequeue_eq_peeked_iff h harrives
    · obtain ⟨rfl, -⟩ := startTransmission_some h
      obtain ⟨_, _, -, -, -, hdelay⟩ := sendPacketDown_ok hsend
      have hsame : q₃.maxDelay = q.maxDelay :=
        hqueueStart.maxDelay.trans (hdelay.trans harrives.maxDelay)
      rw [← hsame]
      exact ih s hs

/-- A packet that is sent long before it expires. -/
theorem sent_is_budgeted_iff_sample :
    ∃ sends, Serves Sample.controller 0 (Sample.queue 1000) 1100 [] sends ∧
      ∃ s ∈ sends, s.dequeued = some s.budgeted := by
  have hserves := Sample.serves_item 0 1000 727272 (by decide) (by decide) (by decide) (by decide)
  have hiff := sent_is_budgeted_iff _ _ _ _ _ _ hserves _ (List.mem_singleton_self _)
  exact ⟨_, hserves, _, List.mem_singleton_self _, hiff.mpr (by decide)⟩

/-- A packet that expires while its transmission time passes is not there to be sent. -/
theorem expired_packet_not_sent :
    ¬ ∀ (c : TdmaController) (now : Time) (q : TdmaMacQueue) (us : ℤ) (arrived : List Item)
      (sends : List Send), Serves c now q us arrived sends →
        ∀ s ∈ sends, s.dequeued = some s.budgeted := by
  intro h
  have hstart := Sample.startTransmission_item (c := Sample.controller) rfl 9999900000 1000 727272
    (by decide) (by decide) (by decide) (by decide)
  have harrives : Arrives 9999900000 (9999900000 + 727272) (Sample.queue 1000) []
      (Sample.queue 1000) := .nil _ (by decide)
  have hempty : ((Sample.queue 1000).cleanup (9999900000 + 727272)).queue = [] := by
    rw [List.eq_nil_iff_forall_not_mem]
    intro i hi
    obtain ⟨hmem, hfresh⟩ := TdmaMacQueue.mem_cleanup.mp hi
    rw [List.mem_singleton.mp hmem] at hfresh
    exact absurd hfresh (by decide)
  have hsent := h _ _ _ _ _ _ (.null hstart harrives (sendPacketDown_nil hempty)) _
    (List.mem_singleton_self _)
  exact absurd ((dequeue_eq_peeked_iff hstart harrives).mp hsent) (by decide)

/-! ### The frames that are sent -/

/-- What does not expire before the end of the grant is fresh until then. -/
theorem fresh_of_lt {stop : Time} (hlt : t < stop)
    (hfresh : ∀ i ∈ l, stop ≤ i.tstamp + q.maxDelay) : ∀ i ∈ l, q.Fresh t i :=
  fun i hi => hlt.trans_le (hfresh i hi)

/-- The first item is looked at, and its call is scheduled if the time admits it. -/
theorem startTransmission_of_admits {i : Item} {rest : List Item} (hq : q.queue = i :: rest)
    (hfresh : ∀ i ∈ q.queue, now + Time.microSeconds us ≤ i.tstamp + q.maxDelay)
    (hadmits : admits c us (i :: l)) :
    ∃ t, startTransmission c now us q = .ok (q, some ⟨t, Time.microSeconds us - t, i⟩) ∧
      admits c (Time.microSeconds us - t).getMicroSeconds l := by
  obtain ⟨t, ht, hlt, hrest⟩ := admits_cons.mp hadmits
  have hnonneg := TdmaController.calculateTxTime_nonneg ht
  have hclean : q.cleanup now = q :=
    TdmaMacQueue.cleanup_of_fresh (fresh_of_lt (by linarith) hfresh)
  refine ⟨t, ?_, hrest⟩
  rw [startTransmission_eq, hclean, hq]
  simp only [ht, ok_bind, if_pos hlt]

/-- When nothing is scheduled, nothing was admitted. -/
theorem eq_nil_of_not_scheduled (hnot : ∀ d, startTransmission c now us q ≠ .ok (q, some d))
    (hfresh : ∀ i ∈ q.queue, now + Time.microSeconds us ≤ i.tstamp + q.maxDelay)
    (hl : l <+: q.queue) (hadmits : admits c us l) : l = [] := by
  cases l with
  | nil => rfl
  | cons i l =>
    obtain ⟨rest, hrest⟩ := hl
    obtain ⟨t, hstart, -⟩ := startTransmission_of_admits hrest.symm hfresh hadmits
    exact absurd hstart (hnot _)

/-- The time that is left after a packet ends with the grant. -/
theorem remainingTime_le (h : startTransmission c now us q = .ok (q', some d)) :
    now + d.delay + Time.microSeconds d.remainingTime.getMicroSeconds ≤
      now + Time.microSeconds us := by
  obtain ⟨-, -, -, -, hlt, hremaining⟩ := startTransmission_some h
  have hround := Time.microSeconds_getMicroSeconds_le (t := d.remainingTime) (by linarith)
  linarith

/-- Without expirations the item that was looked at is sent, and what arrived is at the
end of the queue. -/
theorem queue_of_send {q₂ q₃ : TdmaMacQueue} {frame : Frame} {l' l'' : List Item}
    (h : startTransmission c now us q = .ok (q', some d))
    (harrives : Arrives now (now + d.delay) q' l q₁)
    (hsend : sendPacketDown (now + d.delay) q₁ = .ok (frame, q₂))
    (hqueueStart : Arrives (now + d.delay) (now + d.delay) q₂ l' q₃)
    (hfresh : ∀ i ∈ q.queue ++ (l ++ (l' ++ l'')),
      now + Time.microSeconds us ≤ i.tstamp + q.maxDelay) :
    frame = d.peeked.frame ∧ q₃.maxDelay = q.maxDelay ∧
      q.queue ++ (l ++ (l' ++ l'')) = d.peeked :: (q₃.queue ++ l'') := by
  obtain ⟨rfl, hhead, -, hdelay, hlt, -⟩ := startTransmission_some h
  have hlater : ∀ i ∈ q.queue ++ (l ++ (l' ++ l'')), q.Fresh (now + d.delay) i :=
    fresh_of_lt (by linarith) hfresh
  have hclean : q.cleanup now = q := TdmaMacQueue.cleanup_of_fresh fun i hi =>
    (hlater i (List.mem_append_left _ hi)).mono (by linarith)
  rw [hclean] at hhead harrives
  obtain ⟨rest, hq⟩ := List.head?_eq_some_iff.mp hhead
  have hq₁ : q₁.queue = d.peeked :: (rest ++ l) := by
    rw [harrives.queue_eq fun i hi => hlater i (by grind), hq]
    rfl
  have hclean₁ : q₁.cleanup (now + d.delay) = q₁ := TdmaMacQueue.cleanup_of_fresh fun i hi => by
    rw [TdmaMacQueue.fresh_congr harrives.maxDelay]
    exact hlater i (by grind)
  obtain ⟨i, rest₁, hi, hframe, hq₂, hsame⟩ := sendPacketDown_ok hsend
  rw [hclean₁, hq₁] at hi
  cases hi
  have hq₃ : q₃.queue = rest ++ l ++ l' := by
    rw [hqueueStart.queue_eq fun i hi => ?_, hq₂]
    rw [TdmaMacQueue.fresh_congr (hsame.trans harrives.maxDelay)]
    exact hlater i (by grind)
  refine ⟨hframe, hqueueStart.maxDelay.trans (hsame.trans harrives.maxDelay), ?_⟩
  rw [hq, hq₃]
  simp

/-- Without expirations the items that are sent are the longest part of the queue, with
what arrives, that the grant admits. -/
theorem frames_of_serves (h : Serves c now q us arrived sends)
    (hfresh : ∀ i ∈ q.queue ++ arrived, now + Time.microSeconds us ≤ i.tstamp + q.maxDelay) :
    ∃ l, l <+: q.queue ++ arrived ∧ admits c us l ∧
      sends.filterMap Send.frame = l.map Item.frame ∧
      ∀ l', l' <+: q.queue ++ arrived → admits c us l' → l' <+: l := by
  induction h with
  | @stop now q q' us h =>
    rw [List.append_nil] at hfresh ⊢
    refine ⟨[], List.nil_prefix, rfl, rfl, fun l' hl' hadmits => ?_⟩
    rw [eq_nil_of_not_scheduled (by simp [h]) hfresh hl' hadmits]
  | @fault now q us f h =>
    rw [List.append_nil] at hfresh ⊢
    refine ⟨[], List.nil_prefix, rfl, rfl, fun l' hl' hadmits => ?_⟩
    rw [eq_nil_of_not_scheduled (by simp [h]) hfresh hl' hadmits]
  | @null now q q' q₁ us d l f h harrives hnull =>
    -- the item that was looked at is still there
    obtain ⟨rfl, hhead, -, -, hlt, -⟩ := startTransmission_some h
    have hmem := (TdmaMacQueue.mem_cleanup.mp (List.mem_of_mem_head? hhead)).1
    have hpeeked : q.Fresh (now + d.delay) d.peeked :=
      fresh_of_lt (by linarith) hfresh _ (List.mem_append_left _ hmem)
    have hkept := TdmaMacQueue.head?_cleanup (harrives.head hhead hpeeked)
      ((TdmaMacQueue.fresh_congr harrives.maxDelay).mpr hpeeked)
    rw [cleanup_eq_nil_of_sendPacketDown hnull] at hkept
    cases hkept
  | @send now q q' q₁ q₂ q₃ us d frame l l' l'' sends h harrives hsend hqueueStart _ ih =>
    obtain ⟨hframe, hsame, hall⟩ := queue_of_send h harrives hsend hqueueStart hfresh
    obtain ⟨-, -, ht, -, hlt, hremaining⟩ := startTransmission_some h
    have hstop := remainingTime_le h
    rw [hall] at hfresh ⊢
    obtain ⟨sent, hprefix, hadmits, hframes, hmax⟩ := ih fun i hi => by
      have := hfresh i (List.mem_cons_of_mem _ hi)
      rw [hsame]
      linarith
    refine ⟨d.peeked :: sent, List.cons_prefix_cons.mpr ⟨rfl, hprefix⟩, ?_, ?_,
      fun m hprefix' hadmits' => ?_⟩
    · exact admits_cons.mpr ⟨d.delay, ht, hlt, hremaining ▸ hadmits⟩
    · simp [hframe, hframes]
    · cases m with
      | nil => exact List.nil_prefix
      | cons i m =>
        obtain ⟨rfl, hm⟩ := List.cons_prefix_cons.mp hprefix'
        obtain ⟨t, ht', -, hrest⟩ := admits_cons.mp hadmits'
        cases ht.symm.trans ht'
        exact List.cons_prefix_cons.mpr ⟨rfl, hmax m hm (hremaining ▸ hrest)⟩

/-- The first call drops what has expired. -/
theorem serves_cleanup (h : Serves c now q us arrived sends) :
    Serves c now (q.cleanup now) us arrived sends := by
  have hstart : startTransmission c now us (q.cleanup now) = startTransmission c now us q := by
    rw [startTransmission_eq, startTransmission_eq, TdmaMacQueue.cleanup_cleanup]
  cases h with
  | stop h => exact .stop (hstart.trans h)
  | fault h => exact .fault (hstart.trans h)
  | null h harrives hnull => exact .null (hstart.trans h) harrives hnull
  | send h harrives hsend hqueueStart hrest =>
    exact .send (hstart.trans h) harrives hsend hqueueStart hrest

/-- When nothing expires in the grant, the frames take no more than the grant exactly when
whatever part of the queue the grant admits by the sizes of its packets leaves time for
their headers and trailers. -/
theorem air_time_le_iff (c : TdmaController) (now : Time) (q : TdmaMacQueue) (us : ℕ)
    (arrived : List Item) (sends : List Send) (h : Serves c now q us arrived sends)
    (hfresh : ∀ i ∈ (q.cleanup now).queue ++ arrived,
      now + Time.microSeconds us ≤ i.tstamp + q.maxDelay) :
    ((sends.filterMap Send.frame).map fun f => airTime c f.getSize).sum ≤ us ↔
      ∀ l, l <+: (q.cleanup now).queue ++ arrived → admits c us l →
        airTime c (framing l) ≤ us - airTime c (payload l) := by
  obtain ⟨sent, hprefix, hadmits, hframes, hmax⟩ := frames_of_serves (serves_cleanup h) hfresh
  have hsum : ((sends.filterMap Send.frame).map fun f => airTime c f.getSize).sum =
      airTime c (payload sent) + airTime c (framing sent) := by
    rw [← airTime_add, ← sum_getSize_frame, ← sum_airTime, hframes, List.map_map, List.map_map]
    rfl
  rw [hsum]
  constructor
  · intro hle l hl hl'
    have hpayload := airTime_mono (c := c) (payload_mono (hmax l hl hl'))
    have hframing := airTime_mono (c := c) (framing_mono (hmax l hl hl'))
    linarith
  · intro hroom
    have := hroom sent hprefix hadmits
    linarith

/-- A packet that leaves time for its header and trailer. -/
theorem air_time_le_iff_sample :
    ∃ sends, Serves Sample.controller 0 (Sample.queue 1000) 1100 [] sends ∧
      ((sends.filterMap Send.frame).map fun f => airTime Sample.controller f.getSize).sum ≤
        (1100 : ℕ) := by
  have hserves := Sample.serves_item 0 1000 727272 (by decide) (by decide) (by decide) (by decide)
  refine ⟨_, hserves, (air_time_le_iff _ _ _ _ _ _ hserves (Sample.fresh_in_slot 1000)).mpr
    fun l hl _ => ?_⟩
  rw [Sample.cleanup_queue 0 1000 (by decide)] at hl
  have hpayload := airTime_mono (c := Sample.controller) (payload_mono hl)
  have hframing := airTime_mono (c := Sample.controller) (framing_mono hl)
  have hsize : payload ((Sample.queue 1000).queue ++ []) = 1000 := by
    simp [payload, Sample.queue, Sample.getSize_item]
  have hadded : framing ((Sample.queue 1000).queue ++ []) = 28 := rfl
  have hroom : airTime Sample.controller 1000 + airTime Sample.controller 28 ≤ (1100 : ℕ) := by
    norm_num [airTime, Sample.controller, DataRate.ofBps]
  rw [hsize] at hpayload
  rw [hadded] at hframing
  linarith

/-- A packet of 1499 bytes is admitted to a slot of 1100 microseconds, and its frame takes
longer. -/
theorem frame_exceeds_slot :
    ¬ ∀ (c : TdmaController) (now : Time) (q : TdmaMacQueue) (us : ℕ) (arrived : List Item)
      (sends : List Send), Serves c now q us arrived sends →
        (∀ i ∈ (q.cleanup now).queue ++ arrived,
          now + Time.microSeconds us ≤ i.tstamp + q.maxDelay) →
          ((sends.filterMap Send.frame).map fun f => airTime c f.getSize).sum ≤ us := by
  intro h
  have hle := h Sample.controller 0 (Sample.queue 1499) 1100 [] _
    (Sample.serves_item 0 1499 1090181 (by decide) (by decide) (by decide) (by decide))
    (Sample.fresh_in_slot 1499)
  have hsize : (Sample.item 1499).frame.getSize = 1527 := by
    rw [Item.frame, TdmaMacLow.getSize_startTransmission, TdmaMacLow.getSize, Sample.getSize_item]
    rfl
  have hlong : ((1100 : ℕ) : ℚ) < airTime Sample.controller 1527 := by
    norm_num [airTime, Sample.controller, DataRate.ofBps]
  simp only [List.filterMap_cons, List.filterMap_nil, List.map_cons, List.map_nil, List.sum_cons,
    List.sum_nil, hsize] at hle
  linarith

end SAeroRP.TdmaCentralMac
