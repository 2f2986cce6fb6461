import SAeroRP.Tdma.CentralMac

/-! The course of one grant at a MAC, from the call of StartTransmission on. Packets
arrive while a transmission time passes, and when the layer above is told that the
queue has room. -/

namespace SAeroRP.TdmaCentralMac

/-! ### Arrivals -/

/-- `Arrives t₀ t₁ q l q'`: the layer above enqueues packets from `t₀` to `t₁`, and the
queue takes the items `l`. -/
inductive Arrives : Time → Time → TdmaMacQueue → List Item → TdmaMacQueue → Prop
  | nil {t₀ t₁ : Time} (q : TdmaMacQueue) (h : t₀ ≤ t₁) : Arrives t₀ t₁ q [] q
  | taken {t₀ t t₁ : Time} {q q' q'' : TdmaMacQueue} {l : List Item} {packet : Packet}
      {hdr : WifiMacHeader} (h : t₀ ≤ t) (htaken : q.enqueue t packet hdr = (true, q'))
      (hrest : Arrives t t₁ q' l q'') : Arrives t₀ t₁ q (⟨packet, hdr, t⟩ :: l) q''
  | refused {t₀ t t₁ : Time} {q q' q'' : TdmaMacQueue} {l : List Item} {packet : Packet}
      {hdr : WifiMacHeader} (h : t₀ ≤ t) (hrefused : q.enqueue t packet hdr = (false, q'))
      (hrest : Arrives t t₁ q' l q'') : Arrives t₀ t₁ q l q''

/-- A call of SendPacketDown: the item whose transmission time was taken from the grant,
the item that was dequeued and the frame that was handed to the channel. -/
structure Send where
  time : Time
  budgeted : Item
  dequeued : Option Item
  frame : Option Frame

/-- `Serves c now q us arrived sends`: StartTransmission is called with `us` microseconds
left of a grant; the queue takes the items `arrived` before the last call, and
SendPacketDown is called for `sends`. -/
inductive Serves (c : TdmaController) : Time → TdmaMacQueue → ℤ → List Item → List Send → Prop
  /-- Nothing more is scheduled. -/
  | stop {now : Time} {q q' : TdmaMacQueue} {us : ℤ}
      (h : startTransmission c now us q = .ok (q', none)) : Serves c now q us [] []
  /-- The packet is too big for the assertion on its size. -/
  | fault {now : Time} {q : TdmaMacQueue} {us : ℤ} {f : Fault}
      (h : startTransmission c now us q = .error f) : Serves c now q us [] []
  /-- Dequeue returns the null pointer. -/
  | null {now : Time} {q q' q₁ : TdmaMacQueue} {us : ℤ} {d : SendEvent} {l : List Item} {f : Fault}
      (h : startTransmission c now us q = .ok (q', some d))
      (harrives : Arrives now (now + d.delay) q' l q₁)
      (hnull : sendPacketDown (now + d.delay) q₁ = .error f) :
      Serves c now q us l [⟨now + d.delay, d.peeked, (q₁.dequeue (now + d.delay)).1, none⟩]
  | send {now : Time} {q q' q₁ q₂ q₃ : TdmaMacQueue} {us : ℤ} {d : SendEvent} {frame : Frame}
      {l l' l'' : List Item} {sends : List Send}
      (h : startTransmission c now us q = .ok (q', some d))
      (harrives : Arrives now (now + d.delay) q' l q₁)
      (hsend : sendPacketDown (now + d.delay) q₁ = .ok (frame, q₂))
      (hqueueStart : Arrives (now + d.delay) (now + d.delay) q₂ l' q₃)
      (hrest : Serves c (now + d.delay) q₃ d.remainingTime.getMicroSeconds l'' sends) :
      Serves c now q us (l ++ (l' ++ l''))
        (⟨now + d.delay, d.peeked, (q₁.dequeue (now + d.delay)).1, some frame⟩ :: sends)

/-! ### Budgets -/

/-- The bytes of the packets. -/
def payload (l : List Item) : ℕ := (l.map fun i => i.packet.getSize).sum

/-- The bytes of their headers and trailers. -/
def framing (l : List Item) : ℕ :=
  (l.map fun i => i.hdr.getSize + WifiMacTrailer.getSerializedSize).sum

/-- The time in microseconds the bytes take at the data rate. -/
def airTime (c : TdmaController) (bytes : ℕ) : ℚ := bytes * 8 * 1000000 / c.bps.bitRate

/-- Each item's transmission time is less than what the items before it left of `us`
microseconds. -/
def admits (c : TdmaController) : ℤ → List Item → Bool
  | _, [] => true
  | us, i :: rest =>
    match c.calculateTxTime i.packet with
    | .error _ => false
    | .ok t => t < Time.microSeconds us && admits c (Time.microSeconds us - t).getMicroSeconds rest

section
variable {c : TdmaController} {now : Time} {us : ℤ} {i : Item} {l l' : List Item}

@[simp] theorem payload_cons : payload (i :: l) = i.packet.getSize + payload l := rfl

@[simp] theorem framing_cons :
    framing (i :: l) = i.hdr.getSize + WifiMacTrailer.getSerializedSize + framing l := rfl

/-- The frames hold the packets, the headers and the trailers. -/
theorem sum_getSize_frame (l : List Item) :
    (l.map fun i => i.frame.getSize).sum = payload l + framing l := by
  induction l with
  | nil => rfl
  | cons i l ih =>
    rw [List.map_cons, List.sum_cons, ih, payload_cons, framing_cons, Item.frame,
      TdmaMacLow.getSize_startTransmission, TdmaMacLow.getSize]
    omega

theorem payload_mono (h : l <+: l') : payload l ≤ payload l' := by
  obtain ⟨r, rfl⟩ := h
  simp [payload]

theorem framing_mono (h : l <+: l') : framing l ≤ framing l' := by
  obtain ⟨r, rfl⟩ := h
  simp [framing]

theorem airTime_add (c : TdmaController) (a b : ℕ) :
    airTime c (a + b) = airTime c a + airTime c b := by
  unfold airTime
  rw [Nat.cast_add, add_mul, add_mul, add_div]

theorem airTime_mono {a b : ℕ} (h : a ≤ b) : airTime c a ≤ airTime c b := by
  unfold airTime
  gcongr

theorem sum_airTime (c : TdmaController) (sizes : List ℕ) :
    (sizes.map (airTime c)).sum = airTime c sizes.sum := by
  induction sizes with
  | nil => simp [airTime]
  | cons n sizes ih => rw [List.map_cons, List.sum_cons, List.sum_cons, ih, airTime_add]

theorem admits_cons : admits c us (i :: l) ↔ ∃ t, c.calculateTxTime i.packet = .ok t ∧
    t < Time.microSeconds us ∧ admits c (Time.microSeconds us - t).getMicroSeconds l := by
  rw [admits]
  cases c.calculateTxTime i.packet with
  | error f => simp
  | ok t => simp

end

/-! ### What arrivals leave -/

namespace Arrives

variable {t₀ t₁ : Time} {q q' : TdmaMacQueue} {l : List Item}

theorem le (h : Arrives t₀ t₁ q l q') : t₀ ≤ t₁ := by
  induction h with
  | nil _ h => exact h
  | taken h _ _ ih => exact h.trans ih
  | refused h _ _ ih => exact h.trans ih

theorem earlier {t : Time} (h : Arrives t₀ t₁ q l q') (hle : t ≤ t₀) : Arrives t t₁ q l q' := by
  cases h with
  | nil _ h => exact .nil _ (hle.trans h)
  | taken h htaken hrest => exact .taken (hle.trans h) htaken hrest
  | refused h hrefused hrest => exact .refused (hle.trans h) hrefused hrest

theorem trans {t₂ : Time} {q'' : TdmaMacQueue} {l' : List Item} (h : Arrives t₀ t₁ q l q')
    (h' : Arrives t₁ t₂ q' l' q'') : Arrives t₀ t₂ q (l ++ l') q'' := by
  induction h with
  | nil _ h => exact h'.earlier h
  | taken h htaken _ ih => exact .taken h htaken (ih h')
  | refused h hrefused _ ih => exact .refused h hrefused (ih h')

theorem maxDelay (h : Arrives t₀ t₁ q l q') : q'.maxDelay = q.maxDelay := by
  induction h with
  | nil => rfl
  | taken _ htaken _ ih => rw [ih, (TdmaMacQueue.enqueue_queue htaken).2]
  | refused _ hrefused _ ih => rw [ih, (TdmaMacQueue.enqueue_queue hrefused).2]

/-- The first item stays the first until it expires. -/
theorem head (h : Arrives t₀ t₁ q l q') {i : Item} (hhead : q.queue.head? = some i)
    (hfresh : q.Fresh t₁ i) : q'.queue.head? = some i := by
  induction h with
  | nil => exact hhead
  | taken h htaken hrest ih =>
    obtain ⟨hqueue, hdelay⟩ := TdmaMacQueue.enqueue_queue htaken
    refine ih ?_ ((TdmaMacQueue.fresh_congr hdelay).mpr hfresh)
    rw [hqueue, List.head?_append, TdmaMacQueue.head?_cleanup hhead (hfresh.mono hrest.le)]
    rfl
  | refused h hrefused hrest ih =>
    obtain ⟨hqueue, hdelay⟩ := TdmaMacQueue.enqueue_queue hrefused
    refine ih ?_ ((TdmaMacQueue.fresh_congr hdelay).mpr hfresh)
    rw [hqueue, List.head?_append, TdmaMacQueue.head?_cleanup hhead (hfresh.mono hrest.le)]
    rfl

/-- With nothing that expires, the items are added at the end. -/
theorem queue_eq (h : Arrives t₀ t₁ q l q') (hfresh : ∀ i ∈ q.queue ++ l, q.Fresh t₁ i) :
    q'.queue = q.queue ++ l := by
  induction h with
  | nil => simp
  | @taken t₀ t t₁ q q₁ q'' l packet hdr h htaken hrest ih =>
    obtain ⟨hqueue, hdelay⟩ := TdmaMacQueue.enqueue_queue htaken
    rw [TdmaMacQueue.cleanup_of_fresh fun i hi =>
      (hfresh i (List.mem_append_left _ hi)).mono hrest.le, if_pos rfl] at hqueue
    rw [ih fun i hi => (TdmaMacQueue.fresh_congr hdelay).mpr (hfresh i ?_), hqueue]
    · simp
    · rw [hqueue] at hi
      simpa using hi
  | @refused t₀ t t₁ q q₁ q'' l packet hdr h hrefused hrest ih =>
    obtain ⟨hqueue, hdelay⟩ := TdmaMacQueue.enqueue_queue hrefused
    rw [TdmaMacQueue.cleanup_of_fresh fun i hi =>
      (hfresh i (List.mem_append_left _ hi)).mono hrest.le, if_neg (by decide),
      List.append_nil] at hqueue
    rw [ih fun i hi => (TdmaMacQueue.fresh_congr hdelay).mpr (hfresh i ?_), hqueue]
    rwa [hqueue] at hi

end Arrives

end SAeroRP.TdmaCentralMac
