import SAeroRP.Tdma.Link
import SAeroRP.Tdma.Sample

/-! A packet that a device transmits comes up exactly once at every other device in range
that accepts it. Along every run the frames that were transmitted or still wait are among
those that were sent, and the copies that are under way or were received are those the
channel made, each once. -/

namespace SAeroRP

open Library TdmaNetDevice

namespace LinkState

variable {L : Link} {s t : LinkState} {e : LinkEvent}

/-- What holds between steps. -/
structure Accounted (L : Link) (s : LinkState) : Prop where
  books : ∀ mac, (s.framesTransmitted mac ++ (s.queues mac).queue.map Item.frame).Sublist
    (s.framesSent L mac)
  nodup : (s.arrivals ++ s.received.map Prod.fst).Nodup
  mem_iff : ∀ a, a ∈ s.arrivals ++ s.received.map Prod.fst ↔
    ∃ t, s.transmitted[a.transmission]? = some t ∧
      L.channel.InRange L.node t.geometry t.mac a.low ∧ a = t.arrivalAt L a.transmission a.low
  upcalls : ∀ r ∈ s.received, TdmaMacLow.receive (L.address r.1.low) r.1.frame = .ok r.2
  pending : ∀ a ∈ s.arrivals, s.now ≤ a.due

theorem Initial.accounted (h : s.Initial) : s.Accounted L where
  books mac := by simp [framesTransmitted, framesSent, h.queues, h.sent, h.transmitted]
  nodup := by simp [h.arrivals, h.received]
  mem_iff a := by simp [h.arrivals, h.received, h.transmitted]
  upcalls r hr := by
    rw [h.received] at hr
    cases hr
  pending a ha := by
    rw [h.arrivals] at ha
    cases ha

/-! ### The queues -/

theorem framesSent_append (L : Link) (s : LinkState) (x : Sent) (mac : MacPtr) :
    ({ s with sent := s.sent ++ [x] } : LinkState).framesSent L mac =
      s.framesSent L mac ++ if x.mac = mac then [x.frame L] else [] := by
  by_cases h : x.mac = mac <;> simp [framesSent, h]

theorem framesTransmitted_append (s : LinkState) (t : Transmission) (mac : MacPtr) :
    ({ s with transmitted := s.transmitted ++ [t] } : LinkState).framesTransmitted mac =
      s.framesTransmitted mac ++ if t.mac = mac then [t.frame] else [] := by
  by_cases h : t.mac = mac <;> simp [framesTransmitted, h]

/-- A queue that keeps some of its items keeps the books. -/
theorem Accounted.books_setQueue (h : s.Accounted L) {mac : MacPtr} {q : TdmaMacQueue}
    (hq : q.queue.Sublist (s.queues mac).queue) (mac' : MacPtr) :
    (s.framesTransmitted mac' ++
      ((s.setQueue mac q).queues mac').queue.map Item.frame).Sublist (s.framesSent L mac') := by
  refine List.Sublist.trans ((List.Sublist.refl _).append (List.Sublist.map _ ?_)) (h.books mac')
  by_cases hmac : mac' = mac
  · subst hmac
    simpa using hq
  · rw [queues_setQueue_of_ne s q hmac]

/-- Calls that change nothing but a queue, and take nothing in. -/
theorem Accounted.setQueue (h : s.Accounted L) {mac : MacPtr} {q : TdmaMacQueue}
    (hq : q.queue.Sublist (s.queues mac).queue) : (s.setQueue mac q).Accounted L where
  books := h.books_setQueue hq
  nodup := h.nodup
  mem_iff := h.mem_iff
  upcalls := h.upcalls
  pending := h.pending

theorem sublist_of_startTransmission {c : TdmaController} {now : Time} {us : ℤ}
    {q q' : TdmaMacQueue} {d : Option TdmaCentralMac.SendEvent}
    (h : TdmaCentralMac.startTransmission c now us q = .ok (q', d)) :
    q'.queue.Sublist q.queue := by
  rw [TdmaCentralMac.startTransmission_eq] at h
  split at h
  · cases h
    exact q.sublist_cleanup now
  · obtain ⟨_, -, h⟩ := bind_eq_ok.mp h
    cases h
    exact q.sublist_cleanup now

theorem Accounted.send (h : s.Accounted L) (x : Sent) :
    ({ s.setQueue x.mac (x.call L s.now (s.queues x.mac)).2 with
      sent := s.sent ++ [x] } : LinkState).Accounted L where
  books mac := by
    show (s.framesTransmitted mac ++ List.map Item.frame
      ((s.setQueue x.mac (x.call L s.now (s.queues x.mac)).2).queues mac).queue).Sublist
      (({ s with sent := s.sent ++ [x] } : LinkState).framesSent L mac)
    rw [framesSent_append]
    by_cases hmac : x.mac = mac
    · subst hmac
      obtain ⟨l, hl, hqueue⟩ := x.queue_call L s.now (s.queues x.mac)
      rw [queues_setQueue_self, hqueue, if_pos rfl, ← List.append_assoc]
      refine List.Sublist.append (List.Sublist.trans ?_ (h.books x.mac)) hl
      exact (List.Sublist.refl _).append (((s.queues x.mac).sublist_cleanup s.now).map _)
    · rw [queues_setQueue_of_ne s _ (Ne.symm hmac), if_neg hmac, List.append_nil]
      exact h.books mac
  nodup := h.nodup
  mem_iff := h.mem_iff
  upcalls := h.upcalls
  pending := h.pending

/-! ### The channel -/

theorem mem_arrivals_of_send {g : Geometry} {frame : Frame} {mac : MacPtr} {now : Time} {k : ℕ}
    {a : Arrival} : a ∈ (L.channel.send L.node g frame mac).map (·.arrival now k) ↔
      L.channel.InRange L.node g mac a.low ∧
        a = (⟨mac, now, g, frame⟩ : Transmission).arrivalAt L k a.low := by
  simp only [List.mem_map, SimpleWirelessChannel.mem_send]
  constructor
  · rintro ⟨c, ⟨hrange, hc⟩, rfl⟩
    refine ⟨hrange, ?_⟩
    rw [hc]
    rfl
  · rintro ⟨hrange, ha⟩
    refine ⟨⟨a.low, SimpleWirelessChannel.propagationTime (g.distance (L.node mac) (L.node a.low)),
      frame⟩, ⟨hrange, rfl⟩, ha.symm⟩

theorem arrival_injective (now : Time) (k : ℕ) : Function.Injective (Copy.arrival now k) := by
  intro c c' h
  obtain ⟨low, delay, frame⟩ := c
  obtain ⟨low', delay', frame'⟩ := c'
  simp only [Copy.arrival, Arrival.mk.injEq] at h
  obtain ⟨hdue, rfl, rfl, -⟩ := h
  rw [Int.add_left_cancel hdue]

/-- What is said of one of the elements of a list, with one more at its end. -/
theorem exists_getElem?_concat {α : Type} {l : List α} {x : α} {k : ℕ} {P : α → Prop} :
    (∃ y, (l ++ [x])[k]? = some y ∧ P y) ↔ (∃ y, l[k]? = some y ∧ P y) ∨ k = l.length ∧ P x := by
  rcases lt_trichotomy k l.length with hlt | rfl | hgt
  · simp [List.getElem?_append_left hlt, hlt.ne]
  · simp
  · have hlong : (l ++ [x]).length ≤ k := by
      rw [List.length_append, List.length_singleton]
      omega
    simp [List.getElem?_eq_none hlong, List.getElem?_eq_none hgt.le, hgt.ne']

/-- The packet that is transmitted is taken off the front of its queue. -/
theorem Accounted.books_sendPacketDown (h : s.Accounted L) {mac : MacPtr} {g : Geometry}
    {frame : Frame} {q : TdmaMacQueue}
    (hsend : TdmaCentralMac.sendPacketDown s.now (s.queues mac) = .ok (frame, q)) (mac' : MacPtr) :
    (({ s with transmitted := s.transmitted ++ [⟨mac, s.now, g, frame⟩] } :
        LinkState).framesTransmitted mac' ++
      ((s.setQueue mac q).queues mac').queue.map Item.frame).Sublist (s.framesSent L mac') := by
  obtain ⟨i, rest, hqueue, hframe, hrest, -⟩ := TdmaCentralMac.sendPacketDown_ok hsend
  rw [framesTransmitted_append]
  by_cases hmac : mac = mac'
  · subst hmac
    have hsub : (i :: rest).Sublist (s.queues mac).queue :=
      hqueue ▸ (s.queues mac).sublist_cleanup s.now
    rw [if_pos rfl, queues_setQueue_self, hrest, List.append_assoc, hframe]
    exact List.Sublist.trans ((List.Sublist.refl _).append (hsub.map Item.frame)) (h.books mac)
  · rw [if_neg hmac, queues_setQueue_of_ne s q (Ne.symm hmac), List.append_nil]
    exact h.books mac'

theorem Accounted.sendPacketDown (h : s.Accounted L) (hlow : L.channel.tdmaMacLowList.Nodup)
    {mac : MacPtr} {g : Geometry} {frame : Frame} {q : TdmaMacQueue}
    (hsend : TdmaCentralMac.sendPacketDown s.now (s.queues mac) = .ok (frame, q)) :
    ({ s.setQueue mac q with
      arrivals := s.arrivals ++
        (L.channel.send L.node g frame mac).map (·.arrival s.now s.transmitted.length)
      transmitted := s.transmitted ++ [⟨mac, s.now, g, frame⟩] } : LinkState).Accounted L := by
  have hold : ∀ a ∈ s.arrivals ++ s.received.map Prod.fst, a.transmission < s.transmitted.length := by
    intro a ha
    obtain ⟨t, ht, -⟩ := (h.mem_iff a).mp ha
    exact (List.getElem?_eq_some_iff.mp ht).1
  have hnew : ∀ a ∈ (L.channel.send L.node g frame mac).map
      (·.arrival s.now s.transmitted.length), a.transmission = s.transmitted.length := by
    intro a ha
    rw [(mem_arrivals_of_send.mp ha).2]
    rfl
  have hcomm : (s.received.map Prod.fst ++ (L.channel.send L.node g frame mac).map
      (·.arrival s.now s.transmitted.length)).Perm ((L.channel.send L.node g frame mac).map
        (·.arrival s.now s.transmitted.length) ++ s.received.map Prod.fst) :=
    List.perm_append_comm
  have hperm := hcomm.append_left s.arrivals
  simp only [← List.append_assoc] at hperm
  constructor
  case books =>
    exact h.books_sendPacketDown hsend
  case nodup =>
    refine hperm.nodup_iff.mp (List.nodup_append.mpr ⟨h.nodup, ?_, ?_⟩)
    · exact (SimpleWirelessChannel.nodup_send hlow).map (arrival_injective _ _)
    · rintro a ha b hb rfl
      exact absurd (hnew a hb) (hold a ha).ne
  case mem_iff =>
    intro a
    refine hperm.mem_iff.symm.trans ?_
    rw [List.mem_append, h.mem_iff, mem_arrivals_of_send]
    show _ ↔ ∃ t, (s.transmitted ++ [_])[a.transmission]? = some t ∧ _
    rw [exists_getElem?_concat]
    refine or_congr_right ⟨?_, ?_⟩
    · rintro ⟨hrange, ha⟩
      have hk : a.transmission = s.transmitted.length := by
        rw [ha]
        rfl
      rw [hk]
      exact ⟨rfl, hrange, ha⟩
    · rintro ⟨hk, hrange, ha⟩
      rw [hk] at ha
      exact ⟨hrange, ha⟩
  case upcalls =>
    exact h.upcalls
  case pending =>
    intro a ha
    rcases List.mem_append.mp ha with ha | ha
    · exact h.pending a ha
    · obtain ⟨c, hc, rfl⟩ := List.mem_map.mp ha
      have hdelay := SimpleWirelessChannel.delay_nonneg hc
      show s.now ≤ s.now + c.delay
      linarith

theorem Accounted.receive (h : s.Accounted L) {a : Arrival} {up : Option Upcall}
    (ha : a ∈ s.arrivals) (hup : TdmaMacLow.receive (L.address a.low) a.frame = .ok up) :
    ({ s with arrivals := s.arrivals.erase a, received := s.received ++ [(a, up)] } :
      LinkState).Accounted L := by
  have hperm : (s.arrivals ++ s.received.map Prod.fst).Perm
      (s.arrivals.erase a ++ (s.received ++ [(a, up)]).map Prod.fst) := by
    rw [List.map_append, ← List.append_assoc]
    refine ((List.perm_cons_erase ha).append_right _).trans ?_
    exact (List.perm_append_singleton a _).symm
  constructor
  case books =>
    exact h.books
  case nodup =>
    exact hperm.nodup_iff.mp h.nodup
  case mem_iff =>
    intro b
    exact hperm.mem_iff.symm.trans (h.mem_iff b)
  case upcalls =>
    intro r hr
    rcases List.mem_append.mp hr with hr | hr
    · exact h.upcalls r hr
    · rw [List.mem_singleton.mp hr]
      exact hup
  case pending =>
    intro b hb
    exact h.pending b (List.mem_of_mem_erase hb)

/-- Every step keeps the accounts. -/
theorem Does.accounted (hlow : L.channel.tdmaMacLowList.Nodup) (hdoes : Does L s e t)
    (h : s.Accounted L) : t.Accounted L := by
  cases hdoes with
  | advance hdt hdue => exact ⟨h.books, h.nodup, h.mem_iff, h.upcalls, hdue⟩
  | send x => exact h.send x
  | startTransmission hstart => exact h.setQueue (sublist_of_startTransmission hstart)
  | sendPacketDown hsend => exact h.sendPacketDown hlow hsend
  | setMaxQueueSize mac size => exact h.setQueue (List.Sublist.refl _)
  | setMaxQueueDelay mac delay => exact h.setQueue (List.Sublist.refl _)
  | receive ha hdue hup => exact h.receive ha hup

/-! ### Delivery -/

/-- A device forwards up what its one copy of a transmission carries, when it has received
it. -/
theorem Accounted.forwarded_eq (h : s.Accounted L) {k : ℕ} {t : Transmission}
    (ht : s.transmitted[k]? = some t) {low : MacPtr} {up : Option Upcall}
    (hup : TdmaMacLow.receive (L.address low) t.frame = .ok up) :
    s.forwarded k low =
      if t.arrivalAt L k low ∈ s.received.map Prod.fst then up.toList else [] := by
  have hiff : ∀ r ∈ s.received,
      (r.1.transmission = k ∧ r.1.low = low ↔ r = (t.arrivalAt L k low, up)) := by
    rintro ⟨a, up'⟩ hr
    constructor
    · rintro ⟨rfl, rfl⟩
      have hcall := h.upcalls _ hr
      obtain ⟨t', ht', -, ha⟩ := (h.mem_iff a).mp
        (List.mem_append_right _ (List.mem_map_of_mem (f := Prod.fst) hr))
      obtain rfl : t = t' := Option.some.inj (ht.symm.trans ht')
      have hframe : a.frame = t.frame := by rw [ha]; rfl
      rw [hframe, hup] at hcall
      cases hcall
      rw [← ha]
    · intro heq
      cases heq
      exact ⟨rfl, rfl⟩
  have hmem : (t.arrivalAt L k low, up) ∈ s.received ↔
      t.arrivalAt L k low ∈ s.received.map Prod.fst := by
    constructor
    · intro hr
      exact List.mem_map_of_mem (f := Prod.fst) hr
    · intro ha
      obtain ⟨r, hr, hfst⟩ := List.mem_map.mp ha
      rwa [← (hiff r hr).mp (by rw [hfst]; exact ⟨rfl, rfl⟩)]
  have hnodup : s.received.Nodup := h.nodup.of_append_right.of_map
  rw [forwarded, List.filter_congr fun r hr => decide_eq_decide.mpr (hiff r hr), List.filter_eq]
  split_ifs with ha
  · rw [List.count_eq_one_of_mem hnodup (hmem.mpr ha)]
    cases up <;> rfl
  · rw [List.count_eq_zero_of_not_mem fun hr => ha (hmem.mp hr)]
    rfl

/-- A transmission carries a packet that was sent. -/
theorem Accounted.exists_sent (h : s.Accounted L) {k : ℕ} {t : Transmission}
    (ht : s.transmitted[k]? = some t) : ∃ x ∈ s.sent, x.mac = t.mac ∧ x.frame L = t.frame := by
  have hmem : t.frame ∈ s.framesTransmitted t.mac :=
    List.mem_map_of_mem (List.mem_filter.mpr ⟨List.mem_of_getElem? ht, decide_eq_true rfl⟩)
  obtain ⟨x, hx, hframe⟩ := List.mem_map.mp
    ((h.books t.mac).subset (List.mem_append_left _ hmem))
  obtain ⟨hsent, hmac⟩ := List.mem_filter.mp hx
  exact ⟨x, hsent, of_decide_eq_true hmac, hframe⟩

/-- A device that a transmission has reached forwarded the packet up if it accepts it. -/
theorem Accounted.forwarded_sent (h : s.Accounted L) {k : ℕ} {t : Transmission}
    (ht : s.transmitted[k]? = some t) {x : Sent} (hframe : x.frame L = t.frame) (low : MacPtr) :
    s.forwarded k low =
      if t.arrivalAt L k low ∈ s.received.map Prod.fst ∧
          Accepts (L.address low) x.dest then [x.upcall L]
      else [] := by
  have hup := x.receive_frame L (L.address low)
  rw [hframe] at hup
  rw [h.forwarded_eq ht hup]
  split_ifs <;> simp_all

theorem Accounted.delivers (h : s.Accounted L) : s.Delivers L where
  transmitted mac := (List.sublist_append_left _ _).trans (h.books mac)
  exactly k t ht x _ _ hframe low hfor := by
    rw [h.forwarded_sent ht hframe]
    have hcopy := (h.mem_iff (t.arrivalAt L k low)).mpr ⟨t, ht, hfor.1, rfl⟩
    rcases List.mem_append.mp hcopy with hwaits | hreceived
    · by_cases hmem : t.arrivalAt L k low ∈ s.received.map Prod.fst
      · exact .inl (if_pos ⟨hmem, hfor.2⟩)
      · exact .inr ⟨if_neg fun hand => hmem hand.1, hwaits, h.pending _ hwaits⟩
    · exact .inl (if_pos ⟨hreceived, hfor.2⟩)
  only k t ht x _ _ hframe low hnot := by
    rw [h.forwarded_sent ht hframe, if_neg]
    rintro ⟨hmem, haccepts⟩
    obtain ⟨t', ht', hrange, -⟩ := (h.mem_iff _).mp (List.mem_append_right _ hmem)
    obtain rfl : t = t' := Option.some.inj (ht.symm.trans ht')
    exact hnot ⟨hrange, haccepts⟩
  receives a ha := by
    obtain ⟨t, ht, -, hcopy⟩ := (h.mem_iff a).mp (List.mem_append_left _ ha)
    obtain ⟨x, -, -, hframe⟩ := h.exists_sent ht
    have hcarried : a.frame = x.frame L := by
      rw [hcopy, hframe]
      rfl
    rw [hcarried]
    exact ⟨_, x.receive_frame L (L.address a.low)⟩

/-- Along every run every packet that is transmitted is delivered. -/
theorem link_delivers (L : Link) (hlow : L.channel.tdmaMacLowList.Nodup) {s u : LinkState}
    {tr : List (Transition LinkState LinkEvent Unit)} (hs : s.Initial) (h : Run (Step L) s tr u) :
    u.Delivers L ∧ ∀ x ∈ tr, x.pre.Delivers L := by
  have hall := h.invariant (I := Accounted L) (fun x hx hpre => Does.accounted hlow hx hpre)
    hs.accounted
  exact ⟨hall.1.delivers, fun x hx => (hall.2 x hx).delivers⟩

/-! ### Three devices -/

/-- Three devices in range of each other. -/
def threeDevices : Link where
  channel := { tdmaMacLowList := [0, 1, 2] }
  node := UInt32.ofNat
  address k := Sample.macAddress (UInt8.ofNat k)

/-- The first sends one byte to the second. -/
def oneByte : Sent := ⟨0, ⟨[7], 1, false⟩, none, Sample.macAddress 1, 0x0800⟩

/-- The second device gets the byte 330 ns after its transmission, the third does not. -/
theorem link_delivers_oneByte :
    ∃ tr u, Run (Step threeDevices) ⟨0, fun _ => {}, [], [], [], []⟩ tr u ∧
      u.Delivers threeDevices ∧ u.now = 330 ∧
      u.forwarded 0 1 = [⟨⟨[7], 1, false⟩, 0x0800, Sample.macAddress 0⟩] ∧
      u.forwarded 0 2 = [] := by
  let s₀ : LinkState := ⟨0, fun _ => {}, [], [], [], []⟩
  let q := (oneByte.call threeDevices 0 {}).2
  let s₁ : LinkState := { s₀.setQueue 0 q with sent := [oneByte] }
  let t : Transmission := ⟨0, 0, Sample.apart 100, oneByte.frame threeDevices⟩
  let a := t.arrivalAt threeDevices 0 1
  let b := t.arrivalAt threeDevices 0 2
  let copies := threeDevices.channel.send threeDevices.node t.geometry t.frame 0
  let q' : TdmaMacQueue := { q.cleanup 0 with queue := [], size := (q.cleanup 0).size - 1 }
  let s₂ : LinkState := { s₁.setQueue 0 q' with
    arrivals := copies.map (·.arrival 0 0), transmitted := [t] }
  let s₃ : LinkState := { s₂ with now := 330 }
  let s₄ : LinkState := { s₃ with
    arrivals := s₃.arrivals.erase a
    received := [(a, some (oneByte.upcall threeDevices))] }
  have hqueue : (q.cleanup 0).queue = [⟨t.frame.packet, t.frame.hdr, 0⟩] := by decide
  have hcopies : copies.map (·.arrival 0 0) = [a, b] := by decide +kernel
  have hdue : a.due = 330 ∧ b.due = 330 := by decide +kernel
  have hsend : Step threeDevices ⟨s₀, .send oneByte, (), s₁⟩ := Does.send oneByte
  have htransmit : Step threeDevices ⟨s₁, .sendPacketDown 0 t.geometry, (), s₂⟩ :=
    Does.sendPacketDown (TdmaCentralMac.sendPacketDown_cons hqueue)
  have hadvance : Step threeDevices ⟨s₂, .advance 330, (), s₃⟩ := by
    refine Does.advance (by decide) fun c hc => ?_
    have hc : c ∈ [a, b] := hcopies ▸ hc
    rcases List.mem_pair.mp hc with rfl | rfl
    · exact hdue.1.ge
    · exact hdue.2.ge
  have hreceive : Step threeDevices ⟨s₃, .receive a, (), s₄⟩ := by
    have ha : a ∈ s₃.arrivals := by
      rw [show s₃.arrivals = [a, b] from hcopies]
      exact List.mem_cons_self
    exact Does.receive ha hdue.1 (by decide)
  have hrun := (Run.single _ hsend).append ((Run.single _ htransmit).append
    ((Run.single _ hadvance).append (Run.single _ hreceive)))
  refine ⟨_, _, hrun, ?_, rfl, by decide, by decide⟩
  exact (link_delivers threeDevices (by decide) ⟨fun _ => rfl, rfl, rfl, rfl, rfl⟩ hrun).1

end LinkState

end SAeroRP
