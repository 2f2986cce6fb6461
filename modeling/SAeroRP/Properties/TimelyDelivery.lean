import SAeroRP.Library.InOrder
import SAeroRP.Properties.LinkDelivery
import SAeroRP.Properties.QueueDrain
import SAeroRP.Tdma.Network

/-! Delivery in time. The first packets in the queue of a MAC that has a slot are transmitted
within as many frames and one more, in their order and each for itself, unless they expire
before; and what is transmitted comes up once at every device it is for. -/

namespace SAeroRP

open Library

/-! ### What stays in a queue -/

/-- The items that do not expire until `T`. -/
def lasting (delay T : Time) (l : List Item) : List Item :=
  l.filter fun i => T < i.tstamp + delay

section
variable {delay T : Time} {l l' : List Item}

theorem lasting_sublist (h : l.Sublist l') : (lasting delay T l).Sublist (lasting delay T l') :=
  h.filter _

theorem lasting_sublist_self : (lasting delay T l).Sublist l := List.filter_sublist

@[simp] theorem lasting_lasting : lasting delay T (lasting delay T l) = lasting delay T l := by
  simp [lasting]

/-- A part of the list may be replaced by what of it lasts. -/
theorem lasting_sublist_append {kept kept' out : List Item}
    (h : (lasting delay T l).Sublist (out ++ kept)) (hkept : (lasting delay T kept).Sublist kept') :
    (lasting delay T l).Sublist (out ++ kept') := by
  have hlast : (lasting delay T (lasting delay T l)).Sublist (lasting delay T (out ++ kept)) :=
    lasting_sublist h
  rw [lasting_lasting, lasting, lasting, List.filter_append] at hlast
  exact hlast.trans (lasting_sublist_self.append hkept)

end

namespace TdmaMacQueue

/-- Of the items `kept` those that last until `T` are among `kept'`, with which the queue begins. -/
structure Keeps (delay T : Time) (kept kept' : List Item) (q : TdmaMacQueue) : Prop where
  first : kept' <+: q.queue
  sublist : kept'.Sublist kept
  lasting : (lasting delay T kept).Sublist kept'

variable {delay T now : Time} {kept kept' kept'' : List Item} {q q' : TdmaMacQueue}

theorem Keeps.trans (h : Keeps delay T kept kept' q) (h' : Keeps delay T kept' kept'' q') :
    Keeps delay T kept kept'' q' where
  first := h'.first
  sublist := h'.sublist.trans h.sublist
  lasting := by
    have hkept : (SAeroRP.lasting delay T kept).Sublist ([] ++ kept') := h.lasting
    exact lasting_sublist_append hkept h'.lasting

theorem Keeps.ne_nil (h : Keeps delay T kept kept' q) (hne : kept' ≠ []) : kept ≠ [] := by
  rintro rfl
  exact hne (List.sublist_nil.mp h.sublist)

/-- A queue that is used only until `T` loses nothing that lasts until then. -/
theorem keeps_cleanup (hfirst : kept <+: q.queue) (hnow : kept ≠ [] → now ≤ T) :
    ∃ kept', Keeps q.maxDelay T kept kept' (q.cleanup now) := by
  refine ⟨kept.filter fun i => q.Fresh now i, hfirst.filter _, List.filter_sublist, ?_⟩
  rcases eq_or_ne kept [] with rfl | hne
  · exact List.Sublist.refl _
  · refine List.monotone_filter_right kept fun i hi => ?_
    exact decide_eq_true ((hnow hne).trans_lt (of_decide_eq_true hi))

theorem keeps_enqueue {packet : Packet} {hdr : WifiMacHeader} {taken : Bool}
    (h : q.enqueue now packet hdr = (taken, q')) (hfirst : kept <+: q.queue)
    (hnow : kept ≠ [] → now ≤ T) : ∃ kept', Keeps q.maxDelay T kept kept' q' := by
  obtain ⟨kept', hkept⟩ := keeps_cleanup hfirst hnow
  obtain ⟨hqueue, -⟩ := enqueue_queue h
  exact ⟨kept', { hkept with first := hqueue ▸ hkept.first.trans (List.prefix_append _ _) }⟩

end TdmaMacQueue

namespace TdmaCentralMac

open TdmaMacQueue

variable {T t₀ t₁ : Time} {kept : List Item} {l : List Item} {q q' : TdmaMacQueue}

theorem Arrives.keeps (h : Arrives t₀ t₁ q l q') (hfirst : kept <+: q.queue)
    (hnow : kept ≠ [] → t₁ ≤ T) : ∃ kept', Keeps q.maxDelay T kept kept' q' := by
  induction h generalizing kept with
  | nil => exact ⟨kept, hfirst, List.Sublist.refl _, lasting_sublist_self⟩
  | taken h htaken hrest ih | refused h htaken hrest ih =>
    have hlater := hrest.le
    obtain ⟨-, hdelay⟩ := enqueue_queue htaken
    obtain ⟨kept', hkept⟩ := keeps_enqueue htaken hfirst fun hne => hlater.trans (hnow hne)
    obtain ⟨kept'', hkept'⟩ := ih hkept.first fun hne => hnow (hkept.ne_nil hne)
    exact ⟨kept'', hkept.trans (hdelay ▸ hkept')⟩

/-- The packet that is sent is one of those that wait, or none of them is left. -/
theorem keeps_send {now : Time} {frame : Frame} (h : sendPacketDown now q = .ok (frame, q'))
    (hfirst : kept <+: q.queue) (hnow : kept ≠ [] → now ≤ T) :
    ∃ out kept', kept' <+: q'.queue ∧ (lasting q.maxDelay T kept).Sublist (out ++ kept') ∧
      kept'.length ≤ kept.length - 1 ∧ (kept' ≠ [] → now ≤ T) ∧
      ∀ i ∈ out, now ≤ T ∧ out = [i] ∧ frame = i.frame := by
  obtain ⟨i, rest, hqueue, hframe, hrest, -⟩ := sendPacketDown_ok h
  obtain ⟨kept₁, hkept⟩ := keeps_cleanup hfirst hnow
  have hclean := hkept.first
  have hle := hkept.sublist.length_le
  rw [hqueue] at hclean
  cases kept₁ with
  | nil =>
    refine ⟨[], [], List.nil_prefix, hkept.lasting, Nat.zero_le _, fun hne => absurd rfl hne, ?_⟩
    intro j hj
    cases hj
  | cons j kept' =>
    obtain ⟨rfl, htail⟩ := List.cons_prefix_cons.mp hclean
    have hdue := hnow (hkept.ne_nil (List.cons_ne_nil _ _))
    rw [List.length_cons] at hle
    refine ⟨[j], kept', hrest ▸ htail, hkept.lasting, by omega, fun _ => hdue, ?_⟩
    intro j' hj'
    rw [List.mem_singleton.mp hj']
    exact ⟨hdue, rfl, hframe⟩

/-- What is left of a queue when packets came and the next transmission was started. -/
theorem keeps_next {c : TdmaController} {now : Time} {us : ℤ} {q'' : TdmaMacQueue}
    {d : Option SendEvent} (hchange : Tdma.Enqueues now q q')
    (hsend : startTransmission c now us q' = .ok (q'', d)) (hfirst : kept <+: q.queue)
    (hnow : kept ≠ [] → now ≤ T) :
    ∃ kept', Keeps q.maxDelay T kept kept' q'' ∧ q''.maxDelay = q.maxDelay := by
  obtain ⟨l, harrives⟩ := hchange
  obtain ⟨kept', hkept⟩ := harrives.keeps hfirst hnow
  obtain ⟨kept'', hkept'⟩ := keeps_cleanup hkept.first fun hne => hnow (hkept.ne_nil hne)
  rw [startTransmission_cleanup hsend]
  exact ⟨kept'', hkept.trans (harrives.maxDelay ▸ hkept'), harrives.maxDelay⟩

end TdmaCentralMac

/-! ### Turns -/

namespace Tdma

open TdmaCentralMac TdmaMacQueue

variable {c : TdmaController} {l : List Session} {t₀ T : Time} {v s t : Tdma} {mac : MacPtr} {n : ℕ}
  {kept : List Item}

/-- Of the first `n` items that were in the queue of the MAC in the state `v`, the items `kept`
are still there. In every turn that has passed since, one has left. -/
structure Waits (v : Tdma) (mac : MacPtr) (n : ℕ) (s : Tdma) (kept : List Item) : Prop where
  later : v.now ≤ s.now
  le : v.granted.length ≤ s.granted.length
  maxDelay : (s.queues mac).maxDelay = (v.queues mac).maxDelay
  first : kept <+: (s.queues mac).queue
  length : kept.length ≤ n + calls mac s - turns mac v.granted.length s

/-- What a step makes of the items that wait: some expire, and at most one is sent. -/
structure Passes (v : Tdma) (mac : MacPtr) (n : ℕ) (T : Time) (s : Tdma) (kept : List Item)
    (e : Event) (frames : List Frame) (t : Tdma) (out kept' : List Item) : Prop where
  waits : Waits v mac n t kept'
  lasting : (lasting (v.queues mac).maxDelay T kept).Sublist (out ++ kept')
  sent : ∀ i ∈ out, s.now ≤ T ∧ out = [i] ∧ frames = [i.frame] ∧
    ∃ d, e = .sendPacketDown d ∧ d.mac = mac

/-- A step that does not touch the queue of the MAC. -/
theorem Waits.passes (hs : Waits v mac n s kept) (hlater : s.now ≤ t.now)
    (hle : s.granted.length ≤ t.granted.length) (hqueue : t.queues mac = s.queues mac)
    (hlength : kept.length ≤ n + calls mac t - turns mac v.granted.length t) (e : Event)
    (frames : List Frame) : Passes v mac n T s kept e frames t [] kept where
  waits :=
    ⟨hs.later.trans hlater, hs.le.trans hle, hqueue ▸ hs.maxDelay, hqueue ▸ hs.first, hlength⟩
  lasting := lasting_sublist_self
  sent i hi := by cases hi

theorem passes_session (hfits : SlotFits c) (hexclusive : Exclusive c s) (hs : Waits v mac n s kept)
    (hnow : kept ≠ [] → s.now ≤ T) {p : Time × SessionEvent} {r : Session} {q : TdmaMacQueue}
    {d : Option SendEvent} (hp : p ∈ s.sessions) (hdue : p.1 = s.now)
    (h : c.scheduleTdmaSession p.2.slotNum = .ok r)
    (hsend : startTransmission c s.now r.transmissionSlot.getMicroSeconds (s.queues r.mac) =
      .ok (q, d)) :
    ∃ kept', Passes v mac n T s kept (.session p) [] { s with
      sessions := s.sessions.erase p ++ [(s.now + r.delay, r.next)]
      sends := s.sends ++ (d.map (·.pending s.now r.mac)).toList
      queues := Function.update s.queues r.mac q
      granted := s.granted ++ [⟨r.mac, s.now, s.now + r.transmissionSlot⟩] } [] kept' := by
  have hnone := hexclusive.sends_eq_nil hp hdue
  have hlength := hs.length
  have hclean := startTransmission_cleanup hsend
  rw [calls, hnone, List.countP_nil, Nat.add_zero] at hlength
  by_cases hmac : r.mac = mac
  · subst hmac
    obtain ⟨kept', hkept⟩ := keeps_cleanup hs.first hnow
    refine ⟨kept', ⟨hs.later, hs.le.trans (by simp), ?_, ?_, ?_⟩, ?_, fun i hi => by cases hi⟩
    · simpa [hclean] using hs.maxDelay
    · simpa [hclean] using hkept.first
    · rw [turns_append hs.le, calls, hnone, List.nil_append, countP_pending, if_pos rfl, if_pos rfl]
      cases d with
      | none =>
        have hus := TdmaController.getSlotTime_le h
        rw [← TdmaController.microSeconds_transmissionSlot h] at hus
        have hfirst := hkept.first
        rw [← hclean, startTransmission_of_fits hfits hus hsend, List.prefix_nil] at hfirst
        rw [hfirst]
        exact Nat.zero_le _
      | some d =>
        refine hkept.sublist.length_le.trans (hlength.trans ?_)
        simp
    · exact hs.maxDelay ▸ hkept.lasting
  · refine ⟨kept, hs.passes ?_ ?_ ?_ ?_ _ _⟩
    · exact le_rfl
    · simp
    · exact Function.update_of_ne (Ne.symm hmac) ..
    · rw [turns_append hs.le, calls, hnone, List.nil_append, countP_pending, if_neg hmac, if_neg hmac]
      exact hlength

theorem passes_send (hexclusive : Exclusive c s) (hs : Waits v mac n s kept)
    (hnow : kept ≠ [] → s.now ≤ T) {d : PendingSend} {frame : Frame} {q q' q'' : TdmaMacQueue}
    {d' : Option SendEvent} (hd : d ∈ s.sends)
    (h : sendPacketDown s.now (s.queues d.mac) = .ok (frame, q)) (hchange : Enqueues s.now q q')
    (hsend : startTransmission c s.now d.remainingTime.getMicroSeconds q' = .ok (q'', d')) :
    ∃ out kept', Passes v mac n T s kept (.sendPacketDown d) [frame] { s with
      sends := s.sends.erase d ++ (d'.map (·.pending s.now d.mac)).toList
      queues := Function.update s.queues d.mac q'' } out kept' := by
  have hone := eq_singleton_of_mem hexclusive.sends hd
  have hlength := hs.length
  rw [calls, hone, List.countP_singleton] at hlength
  by_cases hmac : d.mac = mac
  · subst hmac
    simp only [decide_true, if_pos] at hlength
    obtain ⟨out, kept₁, hfirst, hlasting, hle, hnow₁, hout⟩ := keeps_send h hs.first hnow
    obtain ⟨kept', hkept, hsame⟩ := keeps_next hchange hsend hfirst hnow₁
    obtain ⟨-, -, -, -, -, hdelay⟩ := sendPacketDown_ok h
    rw [hdelay] at hkept hsame
    refine ⟨out, kept', ⟨hs.later, hs.le, ?_, ?_, ?_⟩, ?_, fun i hi => ?_⟩
    · simpa [hsame] using hs.maxDelay
    · simpa using hkept.first
    · rw [calls, hone, List.erase_cons_head, List.nil_append, countP_pending, if_pos rfl]
      have hle' := hkept.sublist.length_le
      simp only [turns] at hlength ⊢
      omega
    · exact hs.maxDelay ▸ lasting_sublist_append hlasting hkept.lasting
    · obtain ⟨hdue, hlist, hframe⟩ := hout i hi
      exact ⟨hdue, hlist, by rw [hframe], d, rfl, rfl⟩
  · refine ⟨[], kept, hs.passes ?_ ?_ ?_ ?_ _ _⟩
    · exact le_rfl
    · exact le_rfl
    · exact Function.update_of_ne (Ne.symm hmac) ..
    · rw [calls, hone, List.erase_cons_head, List.nil_append, countP_pending, if_neg hmac]
      simp only [decide_eq_true_eq, if_neg hmac] at hlength
      exact hlength

theorem passes_step (hfits : SlotFits c) (hexclusive : Exclusive c s) (hs : Waits v mac n s kept)
    (hnow : kept ≠ [] → s.now ≤ T) {e : Event} {frames : List Frame}
    (h : Does c Enqueues s e t frames) :
    ∃ out kept', Passes v mac n T s kept e frames t out kept' := by
  cases h with
  | advance hdt =>
    refine ⟨[], kept, hs.passes ?_ ?_ ?_ ?_ _ _⟩
    · exact le_add_of_nonneg_right hdt
    · exact le_rfl
    · rfl
    · exact hs.length
  | start =>
    refine ⟨[], kept, ?_⟩
    unfold start
    split_ifs
    · exact hs.passes le_rfl le_rfl rfl hs.length _ _
    · refine hs.passes ?_ ?_ ?_ ?_ _ _
      · exact le_rfl
      · exact le_rfl
      · rfl
      · exact hs.length
  | session hp hdue h hsend =>
    exact ⟨[], passes_session hfits hexclusive hs hnow hp hdue h hsend⟩
  | sendPacketDown hd hdue h hchange hsend =>
    exact passes_send hexclusive hs hnow hd h hchange hsend
  | @change mac' q h =>
    obtain ⟨l, harrives⟩ := h
    by_cases hmac : mac = mac'
    · subst hmac
      obtain ⟨kept', hkept⟩ := harrives.keeps hs.first hnow
      refine ⟨[], kept', ⟨hs.later, hs.le, ?_, ?_, ?_⟩, ?_, fun i hi => by cases hi⟩
      · simpa [harrives.maxDelay] using hs.maxDelay
      · simpa using hkept.first
      · exact hkept.sublist.length_le.trans hs.length
      · exact hs.maxDelay ▸ hkept.lasting
    · refine ⟨[], kept, hs.passes ?_ ?_ ?_ ?_ _ _⟩
      · exact le_rfl
      · exact le_rfl
      · exact Function.update_of_ne hmac ..
      · exact hs.length

/-- The items that wait are gone when their time has passed. -/
theorem Waits.le_of_ne_nil (hl : c.Frame 0 l) (hv : OnTimetable l t₀ v) (hs : OnTimetable l t₀ s)
    (hexclusive : Exclusive c s) (hstarted : t₀ ≤ v.now) {r : Session} (hr : r ∈ l)
    (hwaits : Waits v r.mac n s kept) (hne : kept ≠ []) :
    s.now ≤ v.now + (n + 1 : ℕ) * frameTime c l := by
  by_contra hlater
  have hturns := le_turns hl hv hs hstarted hr (not_le.mp hlater)
  have hcalls : calls r.mac s ≤ 1 := List.countP_le_length.trans hexclusive.sends
  have hlength := hwaits.length
  have hpos := List.length_pos_iff.mpr hne
  omega

end Tdma

/-! ### Deliveries -/

namespace TdmaNetwork

open Tdma

variable {L : Link} {c : TdmaController} {l : List Session} {t₀ T : Time} {v s t u : TdmaNetwork}
  {mac : MacPtr} {n : ℕ} {gone kept : List Item} {e : Event}
  {tr : List (Transition TdmaNetwork Event Unit)}

/-- The transmission is number `k` of the state and carries the item. The MAC made it since the
state `v` and until `T`. -/
structure Carries (v : TdmaNetwork) (mac : MacPtr) (T : Time) (s : TdmaNetwork) (i : Item) (k : ℕ)
    (t : Transmission) : Prop where
  get : s.transmitted[k]? = some t
  since : v.transmitted.length ≤ k
  mac : t.mac = mac
  frame : t.frame = i.frame
  later : v.tdma.now ≤ t.time
  due : t.time ≤ T

/-- Of the first items that were in the queue of the MAC in the state `v`, those that do not
expire until `T` have been sent, one after another, or are still there. -/
structure Serving (v : TdmaNetwork) (mac : MacPtr) (n : ℕ) (T : Time) (s : TdmaNetwork)
    (gone kept : List Item) : Prop where
  waits : Waits v.tdma mac n s.tdma kept
  since : v.transmitted.length ≤ s.transmitted.length
  lasting : (lasting (v.tdma.queues mac).maxDelay T ((v.tdma.queues mac).queue.take n)).Sublist
    (gone ++ kept)
  gone : List.SublistForall₂ (fun i k => ∃ t, Carries v mac T s i k t) gone
    (List.range s.transmitted.length)

theorem Carries.append {i : Item} {k : ℕ} {x : Transmission} (h : Carries v mac T s i k x)
    {new : List Transmission} (ht : t.transmitted = s.transmitted ++ new) :
    Carries v mac T t i k x := by
  refine { h with get := ?_ }
  rw [ht, List.getElem?_append_left (List.getElem?_eq_some_iff.mp h.get).1]
  exact h.get

theorem serving_step (hfits : TdmaCentralMac.SlotFits c) (hexclusive : Exclusive c s.tdma)
    (hnow : kept ≠ [] → s.tdma.now ≤ T) (hs : Serving v mac n T s gone kept)
    (h : Does L c s e t) : ∃ gone' kept', Serving v mac n T t gone' kept' := by
  obtain ⟨new, htransmitted, hstep⟩ := h.transmits
  have hlen : t.transmitted.length = s.transmitted.length + new.length := by
    rw [htransmitted, List.length_append]
  have hsince : v.transmitted.length ≤ t.transmitted.length := hs.since.trans (by omega)
  have hgone : ∀ m, (List.range s.transmitted.length).Sublist m →
      List.SublistForall₂ (fun i k => ∃ x, Carries v mac T t i k x) gone m := fun m hm =>
    sublistForall₂_mono hs.gone (fun i k ⟨x, hx⟩ => ⟨x, hx.append htransmitted⟩)
      (List.Sublist.refl _) hm
  have hrange : (List.range s.transmitted.length).Sublist (List.range t.transmitted.length) :=
    List.range_sublist.mpr (by omega)
  obtain htdma | ⟨e', frames, hdoes, hnew⟩ := hstep
  · exact ⟨gone, kept, htdma ▸ hs.waits, hsince, hs.lasting, hgone _ hrange⟩
  · obtain ⟨out, kept', hpasses⟩ := passes_step hfits hexclusive hs.waits hnow hdoes
    have hlasting := lasting_sublist_append hs.lasting hpasses.lasting
    rw [← List.append_assoc] at hlasting
    refine ⟨gone ++ out, kept', hpasses.waits, hsince, hlasting, ?_⟩
    cases out with
    | nil =>
      rw [List.append_nil]
      exact hgone _ hrange
    | cons i rest =>
      obtain ⟨hdue, hout, hframes, d, he, hmac⟩ := hpasses.sent i List.mem_cons_self
      obtain ⟨g, rfl⟩ := hnew d i.frame he hframes
      have hcarries : Carries v mac T t i s.transmitted.length ⟨d.mac, s.tdma.now, g, i.frame⟩ :=
        ⟨by simp [htransmitted], hs.since, hmac, rfl, hs.waits.later, hdue⟩
      rw [hlen, List.length_singleton, List.range_succ, hout]
      exact sublistForall₂_concat (hgone _ (List.Sublist.refl _)) ⟨_, hcarries⟩

/-- The packet has come up once at every device that its transmission is for and has reached,
and at no other. -/
structure Conveyed (L : Link) (u : TdmaNetwork) (k : ℕ) (t : Transmission) (x : Sent) : Prop where
  sent : x ∈ u.sent
  mac : x.mac = t.mac
  frame : x.frame L = t.frame
  reached : ∀ low, t.For L x low → (t.arrivalAt L k low).due < u.tdma.now →
    u.link.forwarded k low = [x.upcall L]
  only : ∀ low, ¬ t.For L x low → u.link.forwarded k low = []

theorem conveyed_of_accounted (h : u.link.Accounted L) {k : ℕ} {t : Transmission}
    (ht : u.transmitted[k]? = some t) : ∃ x, Conveyed L u k t x := by
  obtain ⟨x, hx, hmac, hframe⟩ := h.exists_sent ht
  refine ⟨x, hx, hmac, hframe, fun low hfor hdue => ?_, ?_⟩
  · obtain hup | ⟨-, -, hpending⟩ := h.delivers.exactly k t ht x hx hmac hframe low hfor
    · exact hup
    · exact absurd hdue (not_lt.mpr hpending)
  · exact h.delivers.only k t ht x hx hmac hframe

theorem serving_start (v : TdmaNetwork) (mac : MacPtr) (n : ℕ) (T : Time) :
    Serving v mac n T v [] ((v.tdma.queues mac).queue.take n) where
  waits := ⟨le_rfl, le_rfl, rfl, List.take_prefix _ _, by simp [turns]⟩
  since := le_rfl
  lasting := lasting_sublist_self
  gone := .nil

theorem serving_run (hc : c.Filled) (hfits : TdmaCentralMac.SlotFits c) (hl : c.Frame 0 l)
    (hrun : Run (Step L c) v tr u) (hexclusive : Exclusive c v.tdma)
    (hv : OnTimetable l t₀ v.tdma) (hstarted : t₀ ≤ v.tdma.now) {r : Session} (hr : r ∈ l) (n : ℕ) :
    Exclusive c u.tdma ∧ OnTimetable l t₀ u.tdma ∧ ∃ gone kept,
      Serving v r.mac n (v.tdma.now + (n + 1 : ℕ) * frameTime c l) u gone kept := by
  refine (hrun.invariant (I := fun s => Exclusive c s.tdma ∧ OnTimetable l t₀ s.tdma ∧
    ∃ gone kept, Serving v r.mac n (v.tdma.now + (n + 1 : ℕ) * frameTime c l) s gone kept)
    (fun x hx hpre => ?_) ⟨hexclusive, hv, _, _, serving_start v r.mac n _⟩).1
  obtain ⟨hexclusive, hon, gone, kept, hserving⟩ := hpre
  have hdoes : Does L c x.pre x.event x.post := hx
  refine ⟨hdoes.keeps (fun _ _ _ h => exclusive_step hc h hexclusive) hexclusive,
    hdoes.keeps (fun _ _ _ h => onTimetable_step hl h hon) hon, ?_⟩
  exact serving_step hfits hexclusive
    (hserving.waits.le_of_ne_nil hl hv hon hexclusive hstarted hr) hserving hdoes

theorem Does.tdma_start (h : Does L c s .start t) : t.tdma = s.tdma.start := by
  cases h with
  | start h => exact h.eq_start

/-- After the first start the network is on the timetable. -/
theorem onTimetable_run (hc : c.Filled) (hl : c.Frame 0 l) (hrun : Run (Step L c) s tr u)
    (hs : s.Initial) {x : Transition TdmaNetwork Event Unit} (hx : x ∈ tr)
    (hstart : x.event = .start) (hfirst : x.pre.tdma.activeEpoch = false) :
    OnTimetable l (x.pre.tdma.now + 10) u.tdma := by
  obtain ⟨tr₁, -, -, hbefore, -⟩ := hrun.exists_split hx
  obtain ⟨_, htdma⟩ := tdma_run hbefore
  have hexclusive := (exclusive_run hc htdma hs.tdma).1
  have hstep : Does L c x.pre x.event x.post := hrun.step_of_mem x hx
  refine hrun.invariant_of_mem (I := fun s => OnTimetable l (x.pre.tdma.now + 10) s.tdma)
    (fun y hy hpre => Does.keeps hy (fun _ _ _ h => onTimetable_step hl h hpre) hpre) x hx ?_
  rw [hstart] at hstep
  rw [hstep.tdma_start]
  exact onTimetable_start hl hexclusive hfirst

/-- In every run in which no packet is too long for a slot: of the first `n` packets that are in
the queue of a MAC with a slot at some time, those that do not expire in the `n + 1` frames
that follow are transmitted in that time, in their order and each in a transmission of its own;
and the packet comes up exactly once at each device in range that accepts it, when the
transmission has propagated, and at no other. -/
theorem delivered_in_turn (L : Link) (hlow : L.channel.tdmaMacLowList.Nodup) (c : TdmaController)
    (hc : c.Filled) (hfits : TdmaCentralMac.SlotFits c) (l : List Session) (hl : c.Frame 0 l)
    (s v u : TdmaNetwork) (tr tr' : List (Transition TdmaNetwork Event Unit))
    (hrun : Run (Step L c) s tr v) (hrun' : Run (Step L c) v tr' u) (hs : s.Initial)
    (x : Transition TdmaNetwork Event Unit) (hx : x ∈ tr) (hstart : x.event = .start)
    (hfirst : x.pre.tdma.activeEpoch = false) (hstarted : x.pre.tdma.now + 10 ≤ v.tdma.now) (j : ℕ)
    (mac : MacPtr) (hmac : c.slotPtrs[j]? = some mac) (n : ℕ) (T : Time)
    (hT : T = v.tdma.now + (n + 1 : ℕ) * frameTime c l) (hlater : T < u.tdma.now) :
    List.SublistForall₂ (fun i k => ∃ t x, Carries v mac T u i k t ∧ Conveyed L u k t x)
      (lasting (v.tdma.queues mac).maxDelay T ((v.tdma.queues mac).queue.take n))
      (List.range u.transmitted.length) := by
  subst hT
  have hj : j < c.totalSlotsAllowed := (hc.isSome_iff j).mp (by rw [hmac]; rfl)
  obtain ⟨r, hr, -, -, hrmac⟩ := exists_session_of_slot hl hj
  obtain rfl : mac = r.mac := Option.some.inj (hmac.symm.trans hrmac)
  have hv := onTimetable_run hc hl hrun hs hx hstart hfirst
  obtain ⟨_, htdma⟩ := tdma_run hrun
  obtain ⟨hexclusive, hu, gone, kept, hserving⟩ := serving_run hc hfits hl hrun'
    (exclusive_run hc htdma hs.tdma).1 hv hstarted hr n
  have hnil : kept = [] := by
    by_contra hne
    have hle := hserving.waits.le_of_ne_nil hl hv hu hexclusive hstarted hr hne
    exact absurd hlater (not_lt.mpr hle)
  have hsub := hserving.lasting
  rw [hnil, List.append_nil] at hsub
  obtain ⟨_, hlink⟩ := link_run (hrun.append hrun')
  have haccounted := (hlink.invariant (I := LinkState.Accounted L)
    (fun _ hy hpre => LinkState.Does.accounted hlow hy hpre) hs.link.accounted).1
  refine sublistForall₂_mono hserving.gone (fun i k ⟨t, ht⟩ => ?_) hsub (List.Sublist.refl _)
  obtain ⟨x, hconveyed⟩ := conveyed_of_accounted haccounted ht.get
  exact ⟨t, x, ht, hconveyed⟩

/-! ### Two packets of two devices -/

/-- Two devices, one of each MAC. -/
def twoDevices : Link where
  channel := { tdmaMacLowList := [0, 1] }
  node := UInt32.ofNat
  address k := Sample.macAddress (UInt8.ofNat k)

/-- The first sends one byte to the second. -/
def byte (uid : UInt64) : Sent := ⟨0, ⟨[7], uid, false⟩, none, Sample.macAddress 1, 0x0800⟩

def byteItem (uid : UInt64) : Item :=
  ⟨((byte uid).frame twoDevices).packet, ((byte uid).frame twoDevices).hdr, 10⟩

theorem byteItem_fresh {now : Time} (hnow : now < Time.seconds 10) (uids : List UInt64) :
    ∀ i ∈ uids.map byteItem, now < i.tstamp + Time.seconds 10 := by
  intro i hi
  obtain ⟨uid, -, rfl⟩ := List.mem_map.mp hi
  exact hnow.trans (show Time.seconds 10 < 10 + Time.seconds 10 by decide)

theorem calculateTxTime_byteItem (uid : UInt64) :
    twoSlots.calculateTxTime (byteItem uid).packet = .ok 6545 := by
  have hsize : (byteItem uid).packet.getSize = 9 := rfl
  rw [TdmaController.calculateTxTime, hsize, if_pos (by decide)]
  rfl

def byteQueue (uids : List UInt64) : TdmaMacQueue := Sample.queueOf (uids.map byteItem)

/-- The transmission of a byte, in a slot of which there is this much left. -/
def byteSend (uid : UInt64) (us : ℤ) : TdmaCentralMac.SendEvent :=
  ⟨6545, Time.microSeconds us - 6545, byteItem uid⟩

theorem startTransmission_byteQueue {now : Time} (hnow : now < Time.seconds 10) {us : ℤ}
    (hus : 6545 < Time.microSeconds us) (uid : UInt64) (uids : List UInt64) :
    TdmaCentralMac.startTransmission twoSlots now us (byteQueue (uid :: uids)) =
      .ok (byteQueue (uid :: uids), some (byteSend uid us)) := by
  have hstart := Sample.startTransmission_queueOf (byteItem_fresh hnow (uid :: uids))
    (calculateTxTime_byteItem uid) us
  rwa [if_pos hus] at hstart

/-- The sessions are about to begin, and two bytes have been sent. -/
def bytesSent : TdmaNetwork where
  tdma := { still.start with
    now := 10
    queues := Function.update (fun _ => {}) 0 (byteQueue [1, 2]) }
  sent := [byte 1, byte 2]

/-- When nothing is to be sent and nothing is under way, the controller runs alone. -/
theorem lift_run {s u : Tdma} {tr : List (Transition Tdma Tdma.Event (List Frame))}
    (h : Run (Tdma.Step c fun _ _ _ => False) s tr u) (k : TdmaNetwork) (hk : k.arrivals = []) :
    ∃ tr', Run (Step L c) { k with tdma := s } tr' { k with tdma := u } := by
  refine h.exists_map (fun t => { k with tdma := t }) fun x hx => ?_
  obtain ⟨pre, e, frames, post⟩ := x
  have hdoes : Tdma.Does c (fun _ _ _ => False) pre e post frames := hx
  have hcalls : ∀ now q q', False → Calls L [] now q q' := fun _ _ _ hfalse => hfalse.elim
  have hstep : ∃ e', Does L c { k with tdma := pre } e' { k with tdma := post } := by
    cases hdoes with
    | advance hdt hsessions hsends =>
      exact ⟨_, .advance (.advance hdt hsessions hsends) fun a ha => by simp [hk] at ha⟩
    | start => exact ⟨_, .start .start⟩
    | session hp hdue h hsend => exact ⟨_, .session (.session hp hdue h hsend)⟩
    | sendPacketDown _ _ _ hfalse => exact hfalse.elim
    | change hfalse => exact hfalse.elim
  obtain ⟨e', he'⟩ := hstep
  exact ⟨_, .single ⟨_, e', (), _⟩ he'⟩

theorem bytesSent_run : ∃ tr, Run (Step twoDevices twoSlots) { tdma := still }
    (⟨{ tdma := still }, .start, (), { tdma := still.start }⟩ :: tr) bytesSent := by
  let s₁ : TdmaNetwork := { tdma := { still.start with now := 0 + 10 } }
  let s₂ : TdmaNetwork :=
    { tdma := { s₁.tdma with queues := Function.update (fun _ => {}) 0 (byteQueue [1]) }
      sent := [byte 1] }
  have hstart : Does twoDevices twoSlots { tdma := still } .start { tdma := still.start } :=
    .start .start
  have hadvance : Does twoDevices twoSlots { tdma := still.start } (.advance 10) s₁ :=
    .advance (.advance (by decide) (by decide) (by decide)) (by decide)
  have hfirst : Does twoDevices twoSlots s₁ (.send (byte 1)) s₂ := by
    have hqueue : byteQueue [1] = ((byte 1).call twoDevices 10 (byteQueue [])).2 := by
      rw [(byte 1).snd_call, TdmaMacQueue.enqueue, byteQueue, byteQueue,
        Sample.cleanup_queueOf (byteItem_fresh (by decide) [])]
      rfl
    exact .send (.change hqueue)
  have hsecond : Does twoDevices twoSlots s₂ (.send (byte 2)) bytesSent := by
    have hqueue : byteQueue [1, 2] = ((byte 2).call twoDevices 10 (byteQueue [1])).2 := by
      rw [(byte 2).snd_call, TdmaMacQueue.enqueue, byteQueue, byteQueue,
        Sample.cleanup_queueOf (byteItem_fresh (by decide) [1])]
      rfl
    have h : Tdma.Does twoSlots (Calls twoDevices [byte 2]) s₂.tdma (.change 0) _ [] := .change hqueue
    simp only [s₂, Function.update_idem] at h
    exact .send h
  exact ⟨_, .cons rfl hstart (.cons (x := ⟨_, _, (), _⟩) rfl hadvance
    (.cons (x := ⟨_, _, (), _⟩) rfl hfirst (.single ⟨_, _, (), _⟩ hsecond)))⟩

/-- In the first session these bytes are left, and a call may be pending. -/
def bytesLeft (now : Time) (uids : List UInt64) (sends : List PendingSend)
    (transmitted : List Transmission) (received : List (Arrival × Option TdmaNetDevice.Upcall)) :
    TdmaNetwork where
  tdma := { expecting now (10 + Time.microSeconds 1200, .scheduleTdmaSession 1)
      [⟨0, 10, 10 + Time.microSeconds 1100⟩] with
    sends := sends
    queues := Function.update (fun _ => {}) 0 (byteQueue uids) }
  sent := [byte 1, byte 2]
  transmitted := transmitted
  received := received

theorem bytesLeft_session : Does twoDevices twoSlots bytesSent (.session (10, .startTdmaSessions))
    (bytesLeft 10 [1, 2] [(byteSend 1 1100).pending 10 0] [] []) := by
  have hsend := startTransmission_byteQueue (show 10 < Time.seconds 10 by decide)
    (show 6545 < Time.microSeconds 1100 by decide) 1 [2]
  have h : Tdma.Does twoSlots (Calls twoDevices []) bytesSent.tdma
      (.session (10, .startTdmaSessions)) _ [] :=
    .session (by decide) rfl firstSession_scheduled hsend
  rw [show firstSession.mac = 0 from rfl, bytesSent, Function.update_idem] at h
  exact .session h

def byteTransmission (uid : UInt64) (t : Time) : Transmission :=
  ⟨0, t, Sample.apart 100, (byteItem uid).frame⟩

/-- Its copy at the second device, when it was the `k`th transmission. -/
def byteArrival (uid : UInt64) (t : Time) (k : ℕ) : Arrival := ⟨t + 330, 1, (byteItem uid).frame, k⟩

theorem byte_copies (uid : UInt64) : twoDevices.channel.send twoDevices.node (Sample.apart 100)
    (byteItem uid).frame 0 = [⟨1, 330, (byteItem uid).frame⟩] := by
  have hrange : ¬ twoDevices.channel.rangeOf (twoDevices.node 0) <
      (Sample.apart 100).distance (twoDevices.node 0) (twoDevices.node 1) := by decide +kernel
  have hdelay : SimpleWirelessChannel.propagationTime
      ((Sample.apart 100).distance (twoDevices.node 0) (twoDevices.node 1)) = 330 := by decide +kernel
  show [0, 1].filterMap _ = _
  simp only [List.filterMap_cons, List.filterMap_nil, if_pos, if_neg one_ne_zero, if_neg hrange,
    hdelay]

section
variable {t : Time} {uid : UInt64} {uids : List UInt64} {d : PendingSend}
  {next : Option TdmaCentralMac.SendEvent} {transmitted : List Transmission}
  {received : List (Arrival × Option TdmaNetDevice.Upcall)}

/-- A byte goes to the channel. -/
theorem byte_down (hmac : d.mac = 0) (hfresh : d.due < Time.seconds 10)
    (hnext : TdmaCentralMac.startTransmission twoSlots d.due d.remainingTime.getMicroSeconds
      (byteQueue uids) = .ok (byteQueue uids, next)) :
    Does twoDevices twoSlots (bytesLeft d.due (uid :: uids) [d] transmitted received)
      (.sendPacketDown d (Sample.apart 100) [])
      { bytesLeft d.due uids (next.map (·.pending d.due 0)).toList
          (transmitted ++ [byteTransmission uid d.due]) received with
        arrivals := [byteArrival uid d.due transmitted.length] } := by
  have hdown := Sample.sendPacketDown_queueOf (byteItem_fresh hfresh (uid :: uids))
  have h : Tdma.Does twoSlots (Calls twoDevices [])
      (bytesLeft d.due (uid :: uids) [d] transmitted received).tdma (.sendPacketDown d) _
      [(byteItem uid).frame] :=
    .sendPacketDown (List.mem_singleton_self _) rfl (by rw [hmac]; exact hdown) rfl hnext
  have hdoes := Does.sendPacketDown (g := Sample.apart 100) (by simp) h
  have hqueues : Function.update (bytesLeft d.due (uid :: uids) [d] transmitted received).tdma.queues
      0 (byteQueue uids) = Function.update (fun _ => {}) 0 (byteQueue uids) := Function.update_idem ..
  have hsends : (bytesLeft d.due (uid :: uids) [d] transmitted received).tdma.sends.erase d = [] :=
    List.erase_cons_head _ _
  rw [hmac, byte_copies, hqueues, hsends] at hdoes
  exact hdoes

variable (t uid uids d transmitted received) in
/-- A byte is transmitted and comes up at the second device before anything else happens. -/
theorem byte_run (hmac : d.mac = 0) (hnow : t ≤ d.due)
    (hlater : d.due + 330 ≤ 10 + Time.microSeconds 1200)
    (hnext : TdmaCentralMac.startTransmission twoSlots d.due d.remainingTime.getMicroSeconds
      (byteQueue uids) = .ok (byteQueue uids, next))
    (hwaits : ∀ e ∈ next, 330 ≤ e.delay) :
    ∃ tr, Run (Step twoDevices twoSlots) (bytesLeft t (uid :: uids) [d] transmitted received) tr
      (bytesLeft (d.due + 330) uids (next.map (·.pending d.due 0)).toList
        (transmitted ++ [byteTransmission uid d.due])
        (received ++ [(byteArrival uid d.due transmitted.length,
          some ((byte uid).upcall twoDevices))])) := by
  have hpropagation : d.due ≤ d.due + 330 := le_add_of_nonneg_right (by decide)
  have hfresh : d.due < Time.seconds 10 :=
    (hpropagation.trans hlater).trans_lt (show 10 + Time.microSeconds 1200 < Time.seconds 10 by decide)
  have hwait : Does twoDevices twoSlots (bytesLeft t (uid :: uids) [d] transmitted received)
      (.advance (d.due - t)) (bytesLeft d.due (uid :: uids) [d] transmitted received) := by
    refine .advance (.wait hnow (fun p hp => ?_) fun d' hd' => ?_) fun a ha => by cases ha
    · rw [List.mem_singleton.mp hp]
      exact hpropagation.trans hlater
    · rw [List.mem_singleton.mp hd']
  have hdown : Does twoDevices twoSlots (bytesLeft d.due (uid :: uids) [d] transmitted received) _ _ :=
    byte_down hmac hfresh hnext
  have harrive : Does twoDevices twoSlots
      { bytesLeft d.due uids (next.map (·.pending d.due 0)).toList
          (transmitted ++ [byteTransmission uid d.due]) received with
        arrivals := [byteArrival uid d.due transmitted.length] }
      (.advance (d.due + 330 - d.due))
      { bytesLeft (d.due + 330) uids (next.map (·.pending d.due 0)).toList
          (transmitted ++ [byteTransmission uid d.due]) received with
        arrivals := [byteArrival uid d.due transmitted.length] } := by
    refine .advance (.wait hpropagation (fun p hp => ?_) fun d' hd' => ?_) fun a ha => ?_
    · rw [List.mem_singleton.mp hp]
      exact hlater
    · obtain ⟨e, he, rfl⟩ := Option.mem_map.mp (Option.mem_toList.mp hd')
      exact add_le_add_right (hwaits e he) d.due
    · rw [List.mem_singleton.mp ha]
      exact (add_sub_cancel _ _).le
  have haccepts : TdmaNetDevice.Accepts (twoDevices.address 1) (byte uid).dest :=
    show TdmaNetDevice.Accepts (twoDevices.address 1) (Sample.macAddress 1) by decide
  have hup : TdmaMacLow.receive (twoDevices.address 1) (byteItem uid).frame =
      .ok (some ((byte uid).upcall twoDevices)) :=
    ((byte uid).receive_frame twoDevices _).trans (by rw [if_pos haccepts])
  have hreceive : Does twoDevices twoSlots
      { bytesLeft (d.due + 330) uids (next.map (·.pending d.due 0)).toList
          (transmitted ++ [byteTransmission uid d.due]) received with
        arrivals := [byteArrival uid d.due transmitted.length] }
      (.receive (byteArrival uid d.due transmitted.length)) _ :=
    .receive (List.mem_singleton_self _) rfl hup
  rw [List.erase_cons_head] at hreceive
  exact ⟨_, .cons (x := ⟨_, _, (), _⟩) rfl hwait (.cons (x := ⟨_, _, (), _⟩) rfl hdown
    (.cons (x := ⟨_, _, (), _⟩) rfl harrive (.single ⟨_, _, (), _⟩ hreceive)))⟩

end

def bothTransmitted : List Transmission :=
  [byteTransmission 1 (10 + 6545), byteTransmission 2 (10 + 6545 + 6545)]

def bothReceived : List (Arrival × Option TdmaNetDevice.Upcall) :=
  [(byteArrival 1 (10 + 6545) 0, some ((byte 1).upcall twoDevices)),
    (byteArrival 2 (10 + 6545 + 6545) 1, some ((byte 2).upcall twoDevices))]

/-- Both bytes are transmitted in the first session. -/
theorem bothReceived_run : ∃ tr, Run (Step twoDevices twoSlots) bytesSent tr
    (bytesLeft (10 + 6545 + 6545 + 330) [] [] bothTransmitted bothReceived) := by
  have hearly : 10 + 6545 < Time.seconds 10 := by decide
  have hnext := startTransmission_byteQueue hearly (show 6545 < Time.microSeconds 1093 by decide) 2 []
  obtain ⟨tr, hfirst⟩ := byte_run 10 1 [2] ((byteSend 1 1100).pending 10 0) [] [] rfl (by decide)
    (by decide) hnext (fun e he => by cases he; decide)
  obtain ⟨tr', hsecond⟩ := byte_run (10 + 6545 + 330) 2 [] ((byteSend 2 1093).pending (10 + 6545) 0)
    [byteTransmission 1 (10 + 6545)] [(byteArrival 1 (10 + 6545) 0, some ((byte 1).upcall twoDevices))]
    rfl (by decide) (by decide) (TdmaCentralMac.startTransmission_of_empty rfl) (by simp)
  exact ⟨_, .cons (x := ⟨_, _, (), _⟩) rfl bytesLeft_session (hfirst.append hsecond)⟩

theorem bytesLeft_nil (now : Time) (transmitted : List Transmission)
    (received : List (Arrival × Option TdmaNetDevice.Upcall)) :
    (bytesLeft now [] [] transmitted received).tdma = expecting now
      (10 + Time.microSeconds 1200, .scheduleTdmaSession 1) [⟨0, 10, 10 + Time.microSeconds 1100⟩] :=
  holding_nil now _ _

/-- The bytes are transmitted in the three frames after they were sent, one after the other, and
come up at the second device. -/
theorem delivered_in_turn_byte : ∃ u : TdmaNetwork, ∃ k k' t t' x x', k < k' ∧
    Carries bytesSent 0 (10 + Time.microSeconds 7200) u (byteItem 1) k t ∧
      Conveyed twoDevices u k t x ∧
    Carries bytesSent 0 (10 + Time.microSeconds 7200) u (byteItem 2) k' t' ∧
      Conveyed twoDevices u k' t' x' := by
  obtain ⟨tr, hrun⟩ := bytesSent_run
  obtain ⟨tr₁, hreceived⟩ := bothReceived_run
  have hpending : 10 + 6545 + 6545 + 330 ≤ 10 + Time.microSeconds 1200 := by decide
  obtain ⟨tr₂, p, granted, hrest⟩ := expecting_runs (fun _ _ _ => False) 6
    (p := (10 + Time.microSeconds 1200, .scheduleTdmaSession 1)) hpending (by decide)
    [⟨0, 10, 10 + Time.microSeconds 1100⟩]
  rw [← bytesLeft_nil _ bothTransmitted bothReceived] at hrest
  obtain ⟨tr₃, hlater⟩ := lift_run (L := twoDevices) hrest
    (bytesLeft (10 + 6545 + 6545 + 330) [] [] bothTransmitted bothReceived) rfl
  have hpassed : 10 + Time.microSeconds 7200 <
      10 + Time.microSeconds 1200 + (6 : ℕ) * Time.microSeconds 1200 := by decide
  have hinturn := delivered_in_turn twoDevices (by decide) twoSlots twoSlots_filled twoSlots_fits _
    twoSlots_frame { tdma := still } bytesSent _ _ _ hrun (hreceived.append hlater)
    ⟨still_idle, ⟨fun _ => rfl, rfl, rfl, rfl, rfl⟩⟩ _ List.mem_cons_self rfl rfl (by decide) 0 0
    rfl 2 (10 + Time.microSeconds 7200) (by decide) hpassed
  rw [show lasting (bytesSent.tdma.queues 0).maxDelay (10 + Time.microSeconds 7200)
    ((bytesSent.tdma.queues 0).queue.take 2) = [byteItem 1, byteItem 2] by decide] at hinturn
  obtain ⟨ks, hks, hrange⟩ := List.sublistForall₂_iff.mp hinturn
  obtain ⟨k, ks', ⟨t, x, ht, hx⟩, hks', rfl⟩ := List.forall₂_cons_left_iff.mp hks
  obtain ⟨k', ks'', ⟨t', x', ht', hx'⟩, -, rfl⟩ := List.forall₂_cons_left_iff.mp hks'
  have hlt : k < k' := List.rel_of_pairwise_cons (List.pairwise_lt_range.sublist hrange)
    List.mem_cons_self
  exact ⟨_, k, k', t, t', x, x', hlt, ht, hx, ht', hx'⟩

end TdmaNetwork

end SAeroRP
