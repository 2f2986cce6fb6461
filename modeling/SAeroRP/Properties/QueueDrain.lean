import SAeroRP.Properties.QueueStay

/-! The queue of a MAC drains. In every frame a MAC that has a slot sends the first packet of
its queue, if there is one, since a slot is long enough for every packet; so as many frames as
there are packets in the queue are enough for all of them. -/

namespace SAeroRP

/-! ### The entries behind the first ones -/

namespace TdmaMacQueue

/-- Behind the first `n` items of the queue all items came at `T` or later. -/
def CameAfter (T : Time) (n : ℕ) (q : TdmaMacQueue) : Prop := ∀ i ∈ q.queue.drop n, T ≤ i.tstamp

variable {T now : Time} {n m : ℕ} {q q' : TdmaMacQueue}

theorem CameAfter.mono (h : q.CameAfter T n) (hle : n ≤ m) : q.CameAfter T m :=
  fun i hi => h i ((List.drop_sublist_drop_left _ hle).subset hi)

/-- What is dropped from a list only moves the entries behind it forward. -/
theorem drop_filter_subset {α : Type} (p : α → Bool) (n : ℕ) (l : List α) :
    ∀ a ∈ (l.filter p).drop n, a ∈ l.drop n := by
  induction l generalizing n with
  | nil => simp
  | cons b l ih =>
    intro a ha
    cases n with
    | zero => exact List.filter_sublist.subset ha
    | succ n =>
      rw [List.drop_succ_cons]
      rw [List.filter_cons] at ha
      split_ifs at ha
      · exact ih n a ha
      · have hle : (l.drop (n + 1)).Sublist (l.drop n) := List.drop_sublist_drop_left _ n.le_succ
        exact hle.subset (ih (n + 1) a ha)

theorem CameAfter.cleanup (h : q.CameAfter T n) (now : Time) : (q.cleanup now).CameAfter T n :=
  fun i hi => h i (drop_filter_subset _ n q.queue i hi)

/-- The item a call of SendPacketDown takes was among the first ones. -/
theorem CameAfter.tail (h : q.CameAfter T n) {i : Item} {rest : List Item}
    (hq : q.queue = i :: rest) (hq' : q'.queue = rest) : q'.CameAfter T (n - 1) := by
  intro a ha
  rw [hq'] at ha
  cases n with
  | zero => exact h a (by rw [hq]; exact List.mem_cons_of_mem _ ha)
  | succ n => exact h a (by rwa [hq])

theorem CameAfter.enqueue (h : q.CameAfter T n) {packet : Packet} {hdr : WifiMacHeader}
    {taken : Bool} (hnow : T ≤ now) (htaken : q.enqueue now packet hdr = (taken, q')) :
    q'.CameAfter T n := by
  obtain ⟨hqueue, -⟩ := enqueue_queue htaken
  intro i hi
  rw [hqueue, List.drop_append] at hi
  rcases List.mem_append.mp hi with hi | hi
  · exact h.cleanup now i hi
  · have hnew := List.mem_of_mem_drop hi
    split_ifs at hnew
    · rw [List.mem_singleton.mp hnew]
      exact hnow
    · cases hnew

end TdmaMacQueue

namespace TdmaCentralMac

variable {c : TdmaController} {now : Time} {us : ℤ} {q q' : TdmaMacQueue} {T : Time} {n : ℕ}

/-- Every packet that passes the assertion on its size takes less time than a slot. -/
def SlotFits (c : TdmaController) : Prop :=
  ∀ size < 1500, (c.bps.calculateTxTime size : ℤ) < c.getSlotTime

/-- When there is a packet and a slot's time, the packet is sent. -/
theorem startTransmission_of_fits (hc : SlotFits c) (hus : c.getSlotTime ≤ Time.microSeconds us)
    (h : startTransmission c now us q = .ok (q', none)) : q'.queue = [] := by
  have hclean := startTransmission_cleanup h
  rw [startTransmission_eq] at h
  cases hq : (q.cleanup now).queue with
  | nil => rw [hclean, hq]
  | cons i rest =>
    rw [hq] at h
    obtain ⟨t, ht, h⟩ := bind_eq_ok.mp h
    unfold TdmaController.calculateTxTime at ht
    split_ifs at ht with hsize
    cases ht
    have hlt := (hc _ hsize).trans_le hus
    rw [if_pos hlt] at h
    cases h

end TdmaCentralMac

/-- A session is for one slot at least. -/
theorem TdmaController.getSlotTime_le {c : TdmaController} {slotNum : ℕ} {r : Session}
    (h : c.scheduleTdmaSession slotNum = .ok r) : c.getSlotTime ≤ r.transmissionSlot := by
  obtain ⟨-, -, hstretch, hslot, -⟩ := scheduleTdmaSession_ok h
  have hle : (c.slotTime : ℤ) ≤ c.slotTime * r.numOfSlotsAllotted := by
    exact_mod_cast Nat.le_mul_of_pos_right _ hstretch.pos
  rw [hslot, getSlotTime]
  unfold Time.microSeconds
  linarith

namespace Tdma

open Library TdmaCentralMac

variable {c : TdmaController} {l : List Session} {t₀ T : Time} {s t u v : Tdma} {mac : MacPtr}
  {m n : ℕ} {tr : List (Transition Tdma Event (List Frame))}

/-! ### Turns -/

/-- The grants of the MAC since there were `m` grants. -/
def turns (mac : MacPtr) (m : ℕ) (s : Tdma) : ℕ := (s.granted.drop m).countP (·.mac = mac)

/-- The calls of SendPacketDown that are pending at the MAC. -/
def calls (mac : MacPtr) (s : Tdma) : ℕ := s.sends.countP (·.mac = mac)

/-- The turns of a MAC when a grant is added. -/
theorem turns_append (hm : m ≤ s.granted.length) (g : Grant) (sessions : List (Time × SessionEvent))
    (sends : List PendingSend) (queues : MacPtr → TdmaMacQueue) :
    turns mac m { s with sessions := sessions, sends := sends, queues := queues,
                         granted := s.granted ++ [g] } =
      turns mac m s + if g.mac = mac then 1 else 0 := by
  rw [turns, List.drop_append_of_le_length hm, List.countP_append, List.countP_singleton]
  simp [turns]

theorem countP_pending {now : Time} {mac' : MacPtr} {d : Option SendEvent} :
    (d.map (·.pending now mac')).toList.countP (fun d => d.mac = mac) =
      if mac' = mac then d.toList.length else 0 := by
  cases d <;> simp [SendEvent.pending]

theorem eq_singleton_of_mem {α : Type} {l : List α} {a : α} (hl : l.length ≤ 1) (ha : a ∈ l) :
    l = [a] := by
  obtain ⟨b, rfl⟩ := List.length_eq_one_iff.mp (hl.antisymm (List.length_pos_of_mem ha))
  rw [List.mem_singleton.mp ha]

theorem begins_add (hl : c.Frame 0 l) (k n : ℕ) :
    begins l t₀ (k + n * l.length) = begins l t₀ k + n * frameTime c l := by
  have hne : l.map Session.delay ≠ [] := by simpa using hl.ne_nil
  have hoffset := offset_mul_length_add hne n k
  rw [List.length_map, sum_delay_eq_frameTime hl, nsmul_eq_mul] at hoffset
  rw [begins, Nat.add_comm, hoffset, begins]
  ring

/-- In `n` frames a MAC that has a slot has `n` turns. -/
theorem le_turns (hl : c.Frame 0 l) (hv : OnTimetable l t₀ v) (hu : OnTimetable l t₀ u)
    (hstarted : t₀ ≤ v.now) {r : Session} (hr : r ∈ l)
    (hlater : v.now + n * frameTime c l < u.now) : n ≤ turns r.mac v.granted.length u := by
  obtain ⟨i, hi, hget⟩ := List.getElem_of_mem hr
  have hlast : begins l t₀ (v.granted.length - 1) ≤ v.now := by
    rcases Nat.eq_zero_or_pos v.granted.length with hzero | hpos
    · simpa [hzero, begins] using hstarted
    · exact hv.past _ (Nat.sub_lt hpos Nat.one_pos)
  have hlen : v.granted.length + n * l.length ≤ u.granted.length := by
    by_contra hlt
    have hle : u.granted.length ≤ v.granted.length - 1 + n * l.length := by omega
    have hbegins := begins_mono t₀ hl hle
    rw [begins_add hl] at hbegins
    have hfuture := hu.future
    linarith
  refine le_countP_of_blocks (n := l.length) n ?_ fun k hk => ?_
  · rw [List.length_drop]
    omega
  · -- in each frame there is the session's place
    have hframe : (k + 1) * l.length ≤ n * l.length := Nat.mul_le_mul_right _ hk
    rw [Nat.succ_mul] at hframe ⊢
    obtain ⟨j, hj, hmod, hle⟩ := exists_mod_eq hi
      (show i < v.granted.length + (k * l.length + l.length) by omega)
    have hgrant : (u.granted.drop v.granted.length)[j - v.granted.length]? =
        some ⟨r.mac, begins l t₀ j, begins l t₀ j + r.transmissionSlot⟩ := by
      rw [List.getElem?_drop, Nat.add_sub_cancel' (by omega), hu.granted j (by omega), timetable,
        hmod, List.getElem?_eq_getElem hi, hget]
      rfl
    exact ⟨j - v.granted.length, by omega, by omega, _, hgrant, decide_eq_true rfl⟩

theorem twoSlots_fits : SlotFits twoSlots := by
  intro size hsize
  have hlt : size * 8 * 1000000000 / 11000000 < 1100000 :=
    Nat.div_lt_of_lt_mul (by omega)
  show ((size * 8 * 1000000000 / 11000000 : ℕ) : ℤ) < 1100000
  exact_mod_cast hlt

theorem holding_nil (now : Time) (p : Time × SessionEvent) (granted : List Grant) :
    holding [] now p granted = expecting now p granted := by
  have hqueues : Function.update (expecting now p granted).queues 0 (longQueue []) =
      (expecting now p granted).queues := Function.update_eq_self 0 _
  show { expecting now p granted with
    queues := Function.update (expecting now p granted).queues 0 (longQueue []) } = _
  rw [hqueues]

end Tdma

end SAeroRP
