import Mathlib.Tactic.Linarith
import Mathlib.Tactic.NormNum
import SAeroRP.Tdma.Sample

/-! The guard time is the time light needs for the maximal range, in whole microseconds
and rounded down. A frame that is sent at the end of a session arrives before the next
one only if its receiver is close enough for that. -/

namespace SAeroRP

namespace GuardTime

open Library SimpleWirelessChannel

/-- Every copy of a frame that is sent within the session arrives before the next session
begins. -/
def CoversPropagation (ch : SimpleWirelessChannel) (node : MacPtr → UInt32) (g : Geometry)
    (sender : MacPtr) (r : Session) : Prop :=
  ∀ (start sent : Time) (frame : Frame), start ≤ sent → sent < start + r.transmissionSlot →
    ∀ c ∈ ch.send node g frame sender, sent + c.delay ≤ start + r.delay

/-- What the guard time comes to on a channel, in nanoseconds: light covers 3 metres in
10 ns, and the member holds 32 bits of microseconds. -/
def guardOn (maxRange : ℚ) : ℤ := Int.tdiv ⌊maxRange * 10 / 3⌋ 1000 % 4294967296 * 1000

/-- Propagation to every receiver in range takes no longer than the guard time, some more
time and the nanosecond by which a frame is sent before the session ends. -/
def ReceiversWithin (ch : SimpleWirelessChannel) (node : MacPtr → UInt32) (g : Geometry)
    (sender : MacPtr) (more : ℚ) : Prop :=
  ∀ low, ch.InRange node g sender low →
    33 / 10 * g.distance (node sender) (node low) < (guardOn ch.range : ℚ) + 2 + more

/-- The slots from this one on belong to one MAC, and the last of them is the last slot. -/
def EndsFrame (c : TdmaController) (slotNum : ℕ) : Prop :=
  ∃ n, IsStretch (fun m => c.slotPtrs[m]?) slotNum n ∧ slotNum + n = c.totalSlotsAllowed

/-- The slots are empty, or the receivers are close enough for the guard time, or, when the
last slot ends the session, for the guard time and the interframe time. -/
def ReceiversClose (ch : SimpleWirelessChannel) (node : MacPtr → UInt32) (g : Geometry)
    (sender : MacPtr) (c : TdmaController) (slotNum : ℕ) : Prop :=
  c.slotTime = 0 ∨ ReceiversWithin ch node g sender 0 ∨
    EndsFrame c slotNum ∧ ReceiversWithin ch node g sender (c.tdmaInterFrameTime * 1000)

variable {ch : SimpleWirelessChannel} {node : MacPtr → UInt32} {g : Geometry} {sender : MacPtr}
  {c : TdmaController} {slotNum : ℕ} {r : Session}

theorem getGaurdTime_setGaurdTime (ch : SimpleWirelessChannel) (gaurdTime : Time)
    (c : TdmaController) :
    (c.setGaurdTime (some ch) gaurdTime).getGaurdTime = guardOn ch.range := by
  have hsec : ch.range / 300000000 * 1000000000 = ch.range * 10 / 3 := by ring
  have hnonneg : 0 ≤ Int.tdiv ⌊ch.range * 10 / 3⌋ 1000 % 4294967296 :=
    Int.emod_nonneg _ (by norm_num)
  show ((((Time.ofSeconds (ch.range / 300000000)).getMicroSeconds % 4294967296).toNat : ℕ) : ℤ) *
    1000 = _
  rw [Time.ofSeconds, Time.getMicroSeconds, hsec, Int.toNat_of_nonneg hnonneg]
  rfl

/-- The time from the end of the session to the next one. -/
theorem delay_sub_transmissionSlot (h : c.scheduleTdmaSession slotNum = .ok r) :
    r.delay - r.transmissionSlot = c.getGaurdTime +
      if r.slotNum + r.numOfSlotsAllotted = c.totalSlotsAllowed then c.getInterFrameTimeInterval
      else 0 := by
  obtain ⟨hslot, -, -, -, ⟨hlast, -, hdelay⟩ | ⟨hlast, -, hdelay⟩⟩ :=
    TdmaController.scheduleTdmaSession_ok h
  · rw [hslot, if_pos hlast, hdelay]
    ring
  · rw [hslot, if_neg hlast, hdelay]
    ring

/-- The transmission slot is empty only if the slot time is. -/
theorem transmissionSlot_pos_iff (h : c.scheduleTdmaSession slotNum = .ok r) :
    0 < r.transmissionSlot ↔ c.slotTime ≠ 0 := by
  obtain ⟨-, -, hstretch, hslot, -⟩ := TdmaController.scheduleTdmaSession_ok h
  have hpos : 0 < r.numOfSlotsAllotted := hstretch.pos
  rw [hslot, Time.microSeconds]
  constructor
  · rintro hlt h0
    rw [h0] at hlt
    simp at hlt
  · intro h0
    have hmul : 0 < c.slotTime * r.numOfSlotsAllotted := Nat.mul_pos (Nat.pos_of_ne_zero h0) hpos
    have hcast : (0 : ℤ) < (c.slotTime : ℤ) * r.numOfSlotsAllotted := by exact_mod_cast hmul
    linarith

/-- The last moment of the session decides. -/
theorem coversPropagation_iff (hpos : 0 < r.transmissionSlot) :
    CoversPropagation ch node g sender r ↔ ∀ low, ch.InRange node g sender low →
      propagationTime (g.distance (node sender) (node low)) ≤ r.delay - r.transmissionSlot + 1 := by
  constructor
  · intro hcovers low hlow
    have hframe : Frame := ⟨⟨List.Vector.replicate 6 0, List.Vector.replicate 6 0,
      List.Vector.replicate 6 0, true, false⟩, ⟨[], 0, false⟩⟩
    have hcopy := hcovers 0 (r.transmissionSlot - 1) hframe (by lia) (by lia)
      ⟨low, propagationTime (g.distance (node sender) (node low)), hframe⟩
      (mem_send.mpr ⟨hlow, rfl⟩)
    linarith
  · intro hclose start sent frame hstart hsent copy hcopy
    obtain ⟨hlow, heq⟩ := mem_send.mp hcopy
    have hdelay := hclose copy.low hlow
    rw [heq]
    have hlt : sent + 1 ≤ start + r.transmissionSlot := hsent
    show sent + propagationTime _ ≤ _
    linarith

theorem propagationTime_le_iff (d : ℚ) (t : ℤ) :
    propagationTime d ≤ t + 1 ↔ 33 / 10 * d < (t : ℚ) + 2 := by
  rw [← Int.lt_add_one_iff, propagationTime, Int.floor_lt]
  push_cast
  constructor
  · intro hlt
    linarith
  · intro hlt
    linarith

theorem ReceiversWithin.mono {more more' : ℚ} (h : ReceiversWithin ch node g sender more)
    (hle : more ≤ more') : ReceiversWithin ch node g sender more' := by
  intro low hlow
  have hlt := h low hlow
  linarith

/-- The session ends the frame exactly if it is for the slots up to the last one. -/
theorem endsFrame_iff (h : c.scheduleTdmaSession slotNum = .ok r) :
    EndsFrame c slotNum ↔ r.slotNum + r.numOfSlotsAllotted = c.totalSlotsAllowed := by
  obtain ⟨hslot, -, hstretch, -⟩ := TdmaController.scheduleTdmaSession_ok h
  rw [hslot]
  constructor
  · rintro ⟨n, hn, hlast⟩
    rwa [hstretch.unique hn]
  · intro hlast
    exact ⟨_, hstretch, hlast⟩

theorem endsFrame_setGaurdTime (channel : Option SimpleWirelessChannel) (gaurdTime : Time) :
    EndsFrame (c.setGaurdTime channel gaurdTime) slotNum ↔ EndsFrame c slotNum := by
  simp only [EndsFrame, TdmaController.setGaurdTime]

/-- The guard time that SetGaurdTime sets on a channel covers the propagation of what is
sent in a session exactly if the receivers are close. -/
theorem guard_covers_iff (ch : SimpleWirelessChannel) (node : MacPtr → UInt32) (g : Geometry)
    (sender : MacPtr) (gaurdTime : Time) (c : TdmaController) (slotNum : ℕ) (r : Session)
    (h : (c.setGaurdTime (some ch) gaurdTime).scheduleTdmaSession slotNum = .ok r) :
    CoversPropagation ch node g sender r ↔ ReceiversClose ch node g sender c slotNum := by
  have hslot := transmissionSlot_pos_iff h
  rw [TdmaController.slotTime_setGaurdTime] at hslot
  by_cases h0 : c.slotTime = 0
  · -- nothing is sent within an empty slot
    refine ⟨fun _ => .inl h0, fun _ start sent frame hstart hsent => ?_⟩
    have hempty : r.transmissionSlot ≤ 0 := not_lt.mp fun hpos => hslot.mp hpos h0
    linarith
  · have hends := endsFrame_iff h
    rw [endsFrame_setGaurdTime] at hends
    have hinter : (c.setGaurdTime (some ch) gaurdTime).getInterFrameTimeInterval =
        (c.tdmaInterFrameTime : ℤ) * 1000 :=
      TdmaController.getInterFrameTimeInterval_setGaurdTime _ _ c
    rw [coversPropagation_iff (hslot.mpr h0), delay_sub_transmissionSlot h,
      getGaurdTime_setGaurdTime, ReceiversClose, or_iff_right h0, hinter]
    by_cases hlast : EndsFrame c slotNum
    · have hmore : (0 : ℚ) ≤ c.tdmaInterFrameTime * 1000 := by positivity
      rw [if_pos (hends.mp hlast), and_iff_right hlast,
        or_iff_right_of_imp fun hclose => hclose.mono hmore]
      refine forall₂_congr fun low _ => ?_
      rw [propagationTime_le_iff]
      push_cast
      rw [add_right_comm]
    · rw [if_neg fun heq => hlast (hends.mpr heq), add_zero, or_iff_left fun hand => hlast hand.1]
      refine forall₂_congr fun low _ => ?_
      rw [propagationTime_le_iff, add_zero]

/-! ### Two devices -/

/-- Two devices that reach this far. -/
def pair (range : ℚ) : SimpleWirelessChannel :=
  { tdmaMacLowList := [0, 1], range, grange := range }

/-- A controller with the default times and a slot for each of the two. -/
def pairController : TdmaController where
  slotPtrs := (∅ : Std.ExtTreeMap ℕ MacPtr).insert 0 0 |>.insert 1 1
  totalSlotsAllowed := 2

theorem exists_session (ch : SimpleWirelessChannel) (gaurdTime : Time) :
    ∃ r, (pairController.setGaurdTime (some ch) gaurdTime).scheduleTdmaSession 0 = .ok r :=
  TdmaController.exists_session_iff.mpr (by
    show pairController.slotPtrs[0]?.isSome = true
    decide +kernel)

/-- With a range of 350 m the guard time is 1 us, and propagation over 300 m takes 990 ns. -/
theorem guard_covers_iff_near :
    ∃ r, (pairController.setGaurdTime (some (pair 350)) 0).scheduleTdmaSession 0 = .ok r ∧
      CoversPropagation (pair 350) UInt32.ofNat (Sample.apart 300) 0 r := by
  obtain ⟨r, hr⟩ := exists_session (pair 350) 0
  have hfloor : ⌊(pair 350).range * 10 / 3⌋ = 1166 :=
    Int.floor_eq_iff.mpr (by constructor <;> norm_num [pair])
  have hguard : guardOn (pair 350).range = 1000 := by
    rw [guardOn, hfloor]
    rfl
  refine ⟨r, hr, (guard_covers_iff (pair 350) UInt32.ofNat (Sample.apart 300) 0 0 pairController 0 r
    hr).mpr (.inr (.inl fun low _ => ?_))⟩
  rw [hguard]
  norm_num [Sample.apart]

/-- With the default range of 250 m the guard time is 0, and propagation takes 825 ns. -/
theorem guard_misses_propagation :
    ∃ r, (pairController.setGaurdTime (some (pair 250)) 0).scheduleTdmaSession 0 = .ok r ∧
      ¬ CoversPropagation (pair 250) UInt32.ofNat (Sample.apart 250) 0 r := by
  obtain ⟨r, hr⟩ := exists_session (pair 250) 0
  have hfloor : ⌊(pair 250).range * 10 / 3⌋ = 833 :=
    Int.floor_eq_iff.mpr (by constructor <;> norm_num [pair])
  have hguard : guardOn (pair 250).range = 0 := by
    rw [guardOn, hfloor]
    rfl
  have hgap : r.delay - r.transmissionSlot = 0 := by
    rw [delay_sub_transmissionSlot hr, getGaurdTime_setGaurdTime, hguard,
      TdmaController.getInterFrameTimeInterval_setGaurdTime]
    split_ifs <;> rfl
  have hpos : 0 < r.transmissionSlot := by
    rw [transmissionSlot_pos_iff hr, TdmaController.slotTime_setGaurdTime]
    decide
  refine ⟨r, hr, fun hcovers => ?_⟩
  have hnear : (pair 250).InRange UInt32.ofNat (Sample.apart 250) 0 1 := by
    refine ⟨by simp [pair], by decide, ?_⟩
    norm_num [Sample.apart, rangeOf, pair]
  have hlate := (coversPropagation_iff hpos).mp hcovers 1 hnear
  rw [hgap, propagationTime] at hlate
  norm_num [Sample.apart] at hlate

end GuardTime

end SAeroRP
