import SAeroRP.Tdma.QueueHistory
import SAeroRP.Tdma.Sample

/-! The history law of the queue of a TDMA device. It fails in one place: Enqueue
refuses a packet only when the count is equal to the maximal size, so a queue whose
maximal size was set below its count grows on, and the count is 0 again at 2^32. In
every other run the law holds of every call. -/

namespace SAeroRP

open Library

namespace TdmaMacQueue

namespace History

/-! ### States -/

/-- What Cleanup makes of the state. -/
def cleaned (s : History) : History :=
  { s with
    queue := s.queue.cleanup s.now
    ledger := s.ledger.leave .expired (s.queue.expired s.now) }

theorem Initial.consistent {s : History} (h : s.Initial) : s.Consistent where
  counted := by rw [Counted, h.queue, h.size]; rfl
  books := by rw [h.queue, h.ledger]; exact Ledger.holds_nil
  callbacks := by rw [h.dropped, h.ledger]; rfl
  sorted := by rw [h.queue]; exact .nil
  past := fun i hi => by rw [h.queue] at hi; cases hi

namespace Consistent

variable {s : History}

theorem later (h : s.Consistent) {now : Time} (hle : s.now ≤ now) :
    ({ s with now } : History).Consistent :=
  { h with past := fun i hi => (h.past i hi).trans hle }

theorem cleaned (h : s.Consistent) : s.cleaned.Consistent where
  counted := h.counted.cleanup s.now
  books := h.books.leave .expired (s.queue.perm_cleanup s.now) (s.queue.sublist_cleanup s.now)
  callbacks := by
    have hdropped : s.cleaned.queue.dropped =
        s.queue.dropped ++ (s.queue.expired s.now).map Item.packet := rfl
    have hleft : s.cleaned.ledger.leftBy .expired =
        s.ledger.leftBy .expired ++ s.queue.expired s.now :=
      Ledger.leftBy_leave _ _ _ _
    rw [hdropped, hleft, List.map_append, h.callbacks]
  sorted := h.sorted.sublist (s.queue.sublist_cleanup s.now)
  past := fun i hi => h.past i ((s.queue.sublist_cleanup s.now).subset hi)

/-- An item is added at the present time, below the last value of the count. -/
theorem accept (h : s.Consistent) (packet : Packet) (hdr : WifiMacHeader)
    (hlen : s.queue.queue.length ≠ 4294967295) :
    ({ s with
        queue := { s.queue with
          queue := s.queue.queue ++ [⟨packet, hdr, s.now⟩], size := s.queue.size + 1 }
        ledger := s.ledger.accept ⟨packet, hdr, s.now⟩ } : History).Consistent where
  counted := (h.counted.add_one_iff _).mpr hlen
  books := h.books.accept _
  callbacks := h.callbacks
  sorted := by
    rw [List.pairwise_append]
    refine ⟨h.sorted, List.pairwise_singleton _ _, fun i hi j hj => ?_⟩
    rw [List.mem_singleton.mp hj]
    exact h.past i hi
  past := fun i hi => by
    rcases List.mem_append.mp hi with hi | hi
    · exact h.past i hi
    · rw [List.mem_singleton.mp hi]

/-- Items are taken out without a callback, and the count follows. -/
theorem takeOut (h : s.Consistent) {kept gone : List Item} {size : UInt32} {k : Departure}
    (hk : k ≠ .expired) (hperm : s.queue.queue.Perm (gone ++ kept))
    (hkept : kept.Sublist s.queue.queue) (hsize : size.toNat = kept.length) :
    ({ s with
        queue := { s.queue with queue := kept, size }
        ledger := s.ledger.leave k gone } : History).Consistent where
  counted := hsize
  books := h.books.leave k hperm hkept
  callbacks := by
    have hleft := Ledger.leftBy_leave s.ledger k .expired gone
    rw [if_neg hk, List.append_nil] at hleft
    show s.queue.dropped = ((s.ledger.leave k gone).leftBy .expired).map Item.packet
    rw [hleft, h.callbacks]
  sorted := h.sorted.sublist hkept
  past := fun i hi => h.past i (hkept.subset hi)

end Consistent

/-! ### Calls -/

section
variable (s : History)

theorem perform_enqueue (packet : Packet) (hdr : WifiMacHeader) :
    (s.perform (.enqueue packet hdr)).1 =
      if s.cleaned.queue.size = s.queue.maxSize then s.cleaned
      else { s.cleaned with
        queue := { s.cleaned.queue with
          queue := s.cleaned.queue.queue ++ [⟨packet, hdr, s.now⟩]
          size := s.cleaned.queue.size + 1 }
        ledger := s.cleaned.ledger.accept ⟨packet, hdr, s.now⟩ } := by
  have hmax : (s.queue.cleanup s.now).maxSize = s.queue.maxSize := rfl
  by_cases h : (s.queue.cleanup s.now).size = s.queue.maxSize
  · simp [perform, TdmaMacQueue.enqueue, cleaned, hmax, h]
  · simp [perform, TdmaMacQueue.enqueue, cleaned, hmax, h]

theorem perform_dequeue : s.perform .dequeue =
    match s.cleaned.queue.queue with
    | [] => ({ s.cleaned with ledger := s.cleaned.ledger.leave .dequeued [] }, .item none)
    | i :: rest =>
      ({ s.cleaned with
        queue := { s.cleaned.queue with queue := rest, size := s.cleaned.queue.size - 1 }
        ledger := s.cleaned.ledger.leave .dequeued [i] }, .item (some i)) := by
  unfold perform TdmaMacQueue.dequeue cleaned
  cases hq : (s.queue.cleanup s.now).queue <;> simp [hq]

/-- The first item Cleanup leaves is the oldest that has not expired. -/
theorem returnsOldest_head (now : Time) (q : TdmaMacQueue) :
    ReturnsOldest now q (.item (q.cleanup now).queue.head?) := by
  refine ⟨_, rfl, ?_, fun a => ?_⟩
  · rw [List.head?_eq_none_iff, queue_cleanup, List.filter_eq_nil_iff]
    simp
  · rw [queue_cleanup, List.head?_filter, List.find?_eq_some_iff_append]
    simp only [decide_eq_true_eq, Bool.not_eq_true', decide_eq_false_iff_not]
    constructor
    · rintro ⟨hfresh, older, younger, hq, hold⟩
      exact ⟨older, younger, hq, hold, hfresh⟩
    · rintro ⟨older, younger, hq, hold, hfresh⟩
      exact ⟨hfresh, older, younger, hq, hold⟩

/-- Remove finds an item and takes it out, or changes nothing. -/
theorem perform_remove (found : Option ℕ) :
    (∃ k, ∃ hk : k < s.queue.queue.length, found = some k ∧
      (s.perform (.remove found)).1 = { s with
        queue := { s.queue with
          queue := s.queue.queue.eraseIdx k, size := s.queue.size - 1 }
        ledger := s.ledger.leave .removed [s.queue.queue[k]] }) ∨
    (found.bind (s.queue.queue[·]?)) = none ∧
      (s.perform (.remove found)).1 = { s with ledger := s.ledger.leave .removed [] } := by
  cases found with
  | none => exact .inr ⟨rfl, rfl⟩
  | some k =>
    by_cases hk : k < s.queue.queue.length
    · refine .inl ⟨k, hk, rfl, ?_⟩
      simp [perform, TdmaMacQueue.remove, hk]
    · refine .inr ⟨by simpa using hk, ?_⟩
      simp [perform, TdmaMacQueue.remove, hk]

/-- The books do not change when nothing leaves. -/
theorem leave_nil (k : Departure) : s.ledger.leave k [] = s.ledger := by
  simp [Ledger.leave]

end

variable {s : History}

/-- A call that meets the condition keeps what holds between calls. -/
theorem Consistent.perform (h : s.Consistent) {c : Call}
    (hsafe : ∀ packet hdr, c = .enqueue packet hdr →
      s.cleaned.queue.queue.length = 4294967295 → s.queue.maxSize = 4294967295) :
    (s.perform c).1.Consistent := by
  have hclean := h.cleaned
  cases c with
  | enqueue packet hdr =>
    rw [perform_enqueue]
    split_ifs with hfull
    · exact hclean
    · refine hclean.accept packet hdr fun hlen => hfull ?_
      -- the count of 2^32 - 1 items is the maximal size
      rw [hsafe packet hdr rfl hlen, ← UInt32.toNat_inj, hclean.counted, hlen]
      rfl
  | dequeue =>
    rw [perform_dequeue]
    cases hq : s.cleaned.queue.queue with
    | nil => simpa only [leave_nil] using hclean
    | cons i rest =>
      refine hclean.takeOut (by decide) ?_ ?_ ?_
      · rw [hq]
        exact .refl _
      · rw [hq]
        exact List.sublist_cons_self i rest
      · exact hclean.counted.sub_one (by rw [hq]; rfl)
  | peek => exact hclean
  | isEmpty => exact hclean
  | remove found =>
    obtain ⟨k, hk, -, hpost⟩ | ⟨-, hpost⟩ := s.perform_remove found <;> rw [hpost]
    · refine h.takeOut (by decide) (List.getElem_cons_eraseIdx_perm hk).symm
        (List.eraseIdx_sublist _ _) (h.counted.sub_one ?_)
      rw [List.length_eraseIdx_of_lt hk]
      omega
    · simpa only [leave_nil] using h
  | flush =>
    exact h.takeOut (by decide) (by simp) (List.nil_sublist _) rfl
  | setMaxSize => exact ⟨h.counted, h.books, h.callbacks, h.sorted, h.past⟩
  | setMaxDelay => exact ⟨h.counted, h.books, h.callbacks, h.sorted, h.past⟩

/-- No call takes more off the count than there is. -/
theorem Consistent.noUnderflow (h : s.Consistent) (c : Call) :
    ∀ m ∈ subtractions s.now s.queue c, m.2 ≤ m.1.toNat := by
  have hexpired := h.counted.length_expired_le s.now
  intro m hm
  cases c with
  | enqueue packet hdr =>
    rw [List.mem_singleton.mp hm]
    exact hexpired
  | dequeue =>
    rcases List.mem_cons.mp hm with rfl | hm
    · exact hexpired
    · split_ifs at hm with hq
      · cases hm
      · rw [List.mem_singleton.mp hm]
        have hcount : (s.queue.cleanup s.now).size.toNat = _ := h.cleaned.counted
        rw [hcount]
        exact List.length_pos_iff.mpr hq
  | peek =>
    rw [List.mem_singleton.mp hm]
    exact hexpired
  | isEmpty =>
    rw [List.mem_singleton.mp hm]
    exact hexpired
  | remove found =>
    simp only [subtractions] at hm
    split_ifs at hm with hfound
    · rw [List.mem_singleton.mp hm]
      obtain ⟨i, hi⟩ := Option.isSome_iff_exists.mp hfound
      obtain ⟨k, -, hk⟩ := Option.bind_eq_some_iff.mp hi
      show 1 ≤ s.queue.size.toNat
      rw [h.counted]
      exact List.length_pos_of_mem (List.mem_of_getElem? hk)
    · cases hm
  | flush => cases hm
  | setMaxSize => cases hm
  | setMaxDelay => cases hm

/-- The items that stay keep their order, and new ones come after them. -/
theorem order_perform (s : History) (c : Call) :
    ∃ kept new, (s.perform c).1.queue.queue = kept ++ new ∧ kept.Sublist s.queue.queue := by
  have hclean := s.queue.sublist_cleanup s.now
  cases c with
  | enqueue packet hdr =>
    rw [perform_enqueue]
    split_ifs
    · exact ⟨_, [], (List.append_nil _).symm, hclean⟩
    · exact ⟨_, _, rfl, hclean⟩
  | dequeue =>
    rw [perform_dequeue]
    cases hq : s.cleaned.queue.queue with
    | nil => exact ⟨_, [], (List.append_nil _).symm, hclean⟩
    | cons i rest =>
      refine ⟨rest, [], (List.append_nil _).symm, (List.sublist_cons_self i rest).trans ?_⟩
      rw [← hq]
      exact hclean
  | peek => exact ⟨_, [], (List.append_nil _).symm, hclean⟩
  | isEmpty => exact ⟨_, [], (List.append_nil _).symm, hclean⟩
  | remove found =>
    obtain ⟨k, hk, -, hpost⟩ | ⟨-, hpost⟩ := s.perform_remove found <;> rw [hpost]
    · exact ⟨_, [], (List.append_nil _).symm, List.eraseIdx_sublist _ _⟩
    · exact ⟨_, [], (List.append_nil _).symm, List.Sublist.refl _⟩
  | flush => exact ⟨[], [], rfl, List.nil_sublist _⟩
  | setMaxSize => exact ⟨_, [], (List.append_nil _).symm, List.Sublist.refl _⟩
  | setMaxDelay => exact ⟨_, [], (List.append_nil _).symm, List.Sublist.refl _⟩

theorem oldest_perform (s : History) {c : Call} (hc : c = .dequeue ∨ c = .peek) :
    ReturnsOldest s.now s.queue (s.perform c).2 := by
  have hhead := returnsOldest_head s.now s.queue
  rcases hc with rfl | rfl
  · rw [← dequeue_fst] at hhead
    exact hhead
  · exact hhead

/-! ### Runs -/

theorem step_consistent {x : Transition History Event Answer} (hx : Step x) (hsafe : Safe x)
    (h : x.pre.Consistent) : x.post.Consistent := by
  obtain ⟨hle, hperform⟩ := hx
  have hpost : x.post = ({ x.pre with now := x.event.time }.perform x.event.call).1 :=
    congrArg Prod.fst hperform
  rw [hpost]
  exact (h.later hle).perform hsafe

/-- A call that meets the condition does right. -/
theorem step_lawful {x : Transition History Event Answer} (hx : Step x) (hsafe : Safe x)
    (h : x.pre.Consistent) : Lawful x := by
  have hpost := step_consistent hx hsafe h
  obtain ⟨hle, hperform⟩ := hx
  have hout : x.out = ({ x.pre with now := x.event.time }.perform x.event.call).2 :=
    congrArg Prod.snd hperform
  refine ⟨hpost.counted, (h.later hle).noUnderflow x.event.call, hpost.books, hpost.callbacks,
    fun hc => ?_, hpost.sorted, ?_⟩
  · rw [hout]
    exact oldest_perform { x.pre with now := x.event.time } hc
  · have horder := order_perform { x.pre with now := x.event.time } x.event.call
    rwa [← hperform] at horder

/-- A call that counts right meets the condition. -/
theorem safe_of_counted {x : Transition History Event Answer} (hx : Step x)
    (h : x.pre.queue.Counted) (hcounted : x.post.queue.Counted) : Safe x := by
  intro packet hdr hc hlen
  obtain ⟨-, hperform⟩ := hx
  have hpost := congrArg Prod.fst hperform
  have hclean : (x.pre.queue.cleanup x.event.time).Counted := h.cleanup x.event.time
  have hlen' : (x.pre.queue.cleanup x.event.time).queue.length = 4294967295 := hlen
  rw [hc, perform_enqueue] at hpost
  split_ifs at hpost with hfull
  · rw [← UInt32.toNat_inj, ← hfull]
    exact hclean.trans hlen'
  · -- the packet is taken, and the count is 0
    dsimp only at hpost
    rw [hpost] at hcounted
    exact absurd hlen' ((hclean.add_one_iff _).mp hcounted)

/-- In a run from an empty queue every call does right exactly if every Enqueue meets the
condition. -/
theorem lawful_iff_safe {s u : History} {tr : List (Transition History Event Answer)}
    (hrun : Run Step s tr u) (hs : s.Initial) : (∀ x ∈ tr, Lawful x) ↔ ∀ x ∈ tr, Safe x := by
  refine hrun.forall_iff (I := Consistent) (fun x hx hpre => ⟨fun hlawful => ?_, fun hsafe => ?_⟩)
    (fun x hx hsafe hpre => step_consistent hx hsafe hpre) hs.consistent
  · exact safe_of_counted hx hpre.counted hlawful.counted
  · exact step_lawful hx hsafe hpre

/-- A packet comes in and goes out. -/
theorem lawful_iff_safe_pair :
    (⟨0, {}, {}⟩ : History).Initial ∧
      ∀ x ∈ (⟨0, {}, {}⟩ : History).transitions
        [.enqueue (Sample.item 8).packet (Sample.macHeader 0), .dequeue], Lawful x := by
  refine ⟨⟨rfl, rfl, rfl, rfl⟩, (lawful_iff_safe (run_transitions _ _) ⟨rfl, rfl, rfl, rfl⟩).mpr ?_⟩
  intro x hx packet hdr hc hlen
  rcases List.mem_cons.mp hx with rfl | hx
  · exact absurd hlen (by simp)
  · rw [transitions, transitions, List.mem_singleton] at hx
    rw [hx] at hc
    cases hc

/-! ### The count -/

/-- Packets that keep coming in at one time are all accepted once the maximal size is below
the count, up to 2^32 of them. -/
theorem performAll_enqueue (packet : Packet) (hdr : WifiMacHeader) (n : ℕ) (s : History)
    (hdelay : 0 < s.queue.maxDelay) (hfresh : ∀ i ∈ s.queue.queue, s.queue.Fresh s.now i)
    (hmax : s.queue.maxSize = 0) (hpos : 0 < s.queue.queue.length)
    (hsize : s.queue.size = UInt32.ofNat s.queue.queue.length)
    (hn : s.queue.queue.length + n ≤ 4294967296) :
    (s.performAll (List.replicate n (.enqueue packet hdr))).queue.queue.length =
        s.queue.queue.length + n ∧
      (s.performAll (List.replicate n (.enqueue packet hdr))).queue.size =
        UInt32.ofNat (s.queue.queue.length + n) := by
  induction n generalizing s with
  | zero => exact ⟨rfl, hsize⟩
  | succ n ih =>
    have hclean : s.queue.cleanup s.now = s.queue := cleanup_of_fresh hfresh
    have hne : s.cleaned.queue.size ≠ s.queue.maxSize := by
      show (s.queue.cleanup s.now).size ≠ _
      rw [hclean, hmax, hsize, ne_eq, ← UInt32.toNat_inj, UInt32.toNat_ofNat']
      show ¬ _ = 0
      omega
    have hpost := s.perform_enqueue packet hdr
    rw [if_neg hne] at hpost
    have hstep : (s.perform (.enqueue packet hdr)).1.queue =
        { s.queue with
          queue := s.queue.queue ++ [⟨packet, hdr, s.now⟩], size := s.queue.size + 1 } := by
      rw [hpost]
      show ({ s.queue.cleanup s.now with
        queue := (s.queue.cleanup s.now).queue ++ [⟨packet, hdr, s.now⟩]
        size := (s.queue.cleanup s.now).size + 1 } : TdmaMacQueue) = _
      rw [hclean]
    have hrest := ih (s.perform (.enqueue packet hdr)).1 (by rw [hstep]; exact hdelay)
      (fun i hi => by
        rw [hstep] at hi
        rw [now_perform, hstep]
        rcases List.mem_append.mp hi with hi | hi
        · exact hfresh i hi
        · rw [List.mem_singleton.mp hi]
          exact lt_add_of_pos_right _ hdelay)
      (by rw [hstep]; exact hmax) (by rw [hstep]; simp)
      (by rw [hstep]; simp [hsize])
      (by rw [hstep]; simp only [List.length_append, List.length_singleton]; omega)
    rw [hstep] at hrest
    simp only [List.length_append, List.length_singleton] at hrest
    rw [show s.queue.queue.length + 1 + n = s.queue.queue.length + (n + 1) by omega] at hrest
    exact hrest

/-- The calls of a layer that lowers the maximal size below the count. -/
def overfull (packet : Packet) (hdr : WifiMacHeader) (n : ℕ) : List Call :=
  .enqueue packet hdr :: .setMaxSize 0 :: List.replicate n (.enqueue packet hdr)

theorem performAll_overfull (packet : Packet) (hdr : WifiMacHeader) {n : ℕ} (hn : n < 4294967296) :
    ((⟨0, {}, {}⟩ : History).performAll (overfull packet hdr n)).queue.queue.length = 1 + n ∧
      ((⟨0, {}, {}⟩ : History).performAll (overfull packet hdr n)).queue.size =
        UInt32.ofNat (1 + n) := by
  have hsecond : (((⟨0, {}, {}⟩ : History).perform (.enqueue packet hdr)).1.perform
      (.setMaxSize 0)).1 = ⟨0, { queue := [⟨packet, hdr, 0⟩], size := 1, maxSize := 0 },
        { accepted := [⟨packet, hdr, 0⟩] }⟩ := by
    simp [perform, TdmaMacQueue.enqueue, cleanup, setMaxSize, expired, Ledger.leave, Ledger.accept]
  have hfresh : ∀ i ∈ [(⟨packet, hdr, 0⟩ : Item)],
      (⟨[⟨packet, hdr, 0⟩], 1, 0, Time.seconds 10, 0, []⟩ : TdmaMacQueue).Fresh 0 i := by
    intro i hi
    rw [List.mem_singleton.mp hi]
    show (0 : ℤ) < 0 + Time.seconds 10
    decide
  rw [overfull, performAll, performAll, hsecond]
  refine performAll_enqueue packet hdr n _ ?_ hfresh rfl Nat.zero_lt_one rfl ?_
  · show (0 : ℤ) < Time.seconds 10
    decide
  · show 1 + n ≤ 4294967296
    omega

/-- The last of these calls does wrong. -/
theorem not_lawful_overfull (packet : Packet) (hdr : WifiMacHeader) :
    ¬ ∀ x ∈ (⟨0, {}, {}⟩ : History).transitions (overfull packet hdr 4294967295), Lawful x := by
  intro hlawful
  have hs : (⟨0, {}, {}⟩ : History).Initial := ⟨rfl, rfl, rfl, rfl⟩
  have hcounted := ((run_transitions _ _).invariant_of (I := fun s => s.queue.Counted)
    (fun y _ hy _ => hy.counted) hlawful hs.consistent.counted).1
  obtain ⟨hlength, hsize⟩ := performAll_overfull packet hdr (n := 4294967295) (by decide)
  rw [Counted, hlength, hsize] at hcounted
  exact absurd hcounted (by decide)

/-- A default queue takes a packet, has its maximal size set to 0, and takes 2^32 - 1 more:
it holds 2^32 packets and counts none. -/
theorem count_wraps :
    ((⟨0, {}, {}⟩ : History).performAll
      (overfull (Sample.item 8).packet (Sample.macHeader 0) 4294967295)).queue.queue.length =
        4294967296 ∧
    ((⟨0, {}, {}⟩ : History).performAll
      (overfull (Sample.item 8).packet (Sample.macHeader 0) 4294967295)).queue.size = 0 ∧
    ¬ ∀ (s u : History) (tr : List (Transition History Event Answer)), s.Initial →
      Run Step s tr u → ∀ x ∈ tr, Lawful x := by
  obtain ⟨hlength, hsize⟩ := performAll_overfull (Sample.item 8).packet (Sample.macHeader 0)
    (n := 4294967295) (by decide)
  refine ⟨hlength, hsize, fun hall => ?_⟩
  exact not_lawful_overfull (Sample.item 8).packet (Sample.macHeader 0)
    (hall _ _ _ ⟨rfl, rfl, rfl, rfl⟩ (run_transitions _ _))

end History

end TdmaMacQueue

end SAeroRP
