import Mathlib.Data.Rat.Floor
import SAeroRP.Tdma.CentralMac

/-! The wireless channel. A frame that is sent is scheduled once at every other device
in range, after the time its propagation takes. The ground station has a range of its
own. Where the nodes are is a geometry, and distances are exact. -/

namespace SAeroRP

open Library

/-- The distances between nodes, in metres. -/
structure Geometry where
  distance : UInt32 → UInt32 → ℚ
  nonneg : ∀ a b, 0 ≤ distance a b

/-- A low MAC is named like the MAC it belongs to, and so is their device. -/
structure SimpleWirelessChannel where
  tdmaMacLowList : List MacPtr := []
  range : ℚ := 250
  grange : ℚ := 250
  gid : Int32 := 0

/-- A call of TdmaMacLow::Receive that is scheduled. -/
structure Copy where
  low : MacPtr
  delay : Time
  frame : Frame
  deriving DecidableEq

namespace SimpleWirelessChannel

/-- SetChannel of a low MAC. -/
def add (low : MacPtr) (ch : SimpleWirelessChannel) : SimpleWirelessChannel :=
  { ch with tdmaMacLowList := ch.tdmaMacLowList ++ [low] }

def getMaxRange (ch : SimpleWirelessChannel) : ℚ := ch.range

/-- The range of what a node sends. -/
def rangeOf (ch : SimpleWirelessChannel) (node : UInt32) : ℚ :=
  if node = ch.gid.toUInt32 then ch.grange else ch.range

/-- 3.3 ns a metre, rounded down to whole nanoseconds. -/
def propagationTime (distance : ℚ) : Time := ⌊33 / 10 * distance⌋

/-- The copies of a frame, for the node of every device. -/
def send (node : MacPtr → UInt32) (g : Geometry) (frame : Frame) (sender : MacPtr)
    (ch : SimpleWirelessChannel) : List Copy :=
  ch.tdmaMacLowList.filterMap fun tmp =>
    if tmp = sender then none
    else
      let range := ch.rangeOf (node sender)
      let distance := g.distance (node sender) (node tmp)
      if range < distance then none
      else some ⟨tmp, propagationTime distance, frame⟩

/-- Another device that is within the range of the sender. -/
def InRange (node : MacPtr → UInt32) (g : Geometry) (sender low : MacPtr)
    (ch : SimpleWirelessChannel) : Prop :=
  low ∈ ch.tdmaMacLowList ∧ low ≠ sender ∧
    g.distance (node sender) (node low) ≤ ch.rangeOf (node sender)

instance (node : MacPtr → UInt32) (g : Geometry) (sender low : MacPtr)
    (ch : SimpleWirelessChannel) : Decidable (ch.InRange node g sender low) :=
  inferInstanceAs (Decidable (_ ∧ _ ∧ _))

variable {node : MacPtr → UInt32} {g : Geometry} {frame : Frame} {sender : MacPtr}
  {ch : SimpleWirelessChannel}

/-- The frame goes to the devices in range and arrives when it has propagated. -/
theorem mem_send {c : Copy} : c ∈ ch.send node g frame sender ↔
    ch.InRange node g sender c.low ∧
      c = ⟨c.low, propagationTime (g.distance (node sender) (node c.low)), frame⟩ := by
  simp only [send, List.mem_filterMap, InRange]
  constructor
  · rintro ⟨low, hlow, hc⟩
    split_ifs at hc with hself hfar
    cases hc
    exact ⟨⟨hlow, hself, not_lt.mp hfar⟩, rfl⟩
  · rintro ⟨⟨hlow, hself, hnear⟩, hc⟩
    refine ⟨c.low, hlow, ?_⟩
    rw [if_neg hself, if_neg (not_lt.mpr hnear), ← hc]

/-- No device gets two copies. -/
theorem nodup_send (h : ch.tdmaMacLowList.Nodup) : (ch.send node g frame sender).Nodup := by
  refine h.filterMap fun a b c hc hc' => ?_
  have hlow : ∀ a, c ∈ (if a = sender then none
      else if ch.rangeOf (node sender) < g.distance (node sender) (node a) then none
      else some ⟨a, propagationTime (g.distance (node sender) (node a)), frame⟩ : Option Copy) →
      c.low = a := by
    intro a ha
    split_ifs at ha <;> cases ha
    rfl
  exact (hlow a hc).symm.trans (hlow b hc')

theorem propagationTime_nonneg (g : Geometry) (a b : UInt32) :
    0 ≤ propagationTime (g.distance a b) :=
  Int.floor_nonneg.mpr (mul_nonneg (by norm_num) (g.nonneg a b))

theorem delay_nonneg {c : Copy} (h : c ∈ ch.send node g frame sender) : 0 ≤ c.delay := by
  rw [(mem_send.mp h).2]
  exact propagationTime_nonneg g _ _

end SimpleWirelessChannel

/-! ### Guard time -/

namespace Time

/-- Seconds of a number that need not be whole; the time is whole nanoseconds. -/
def ofSeconds (s : ℚ) : Time := ⌊s * 1000000000⌋

end Time

namespace TdmaController

/-- SetGaurdTime. On a channel the argument is not used. The member has 32 bits. -/
def setGaurdTime (channel : Option SimpleWirelessChannel) (gaurdTime : Time) (c : TdmaController) :
    TdmaController :=
  let us := match channel with
    | some ch => (Time.ofSeconds (ch.getMaxRange / 300000000)).getMicroSeconds
    | none => gaurdTime.getMicroSeconds
  { c with gaurdTime := (us % 4294967296).toNat }

@[simp] theorem slotTime_setGaurdTime (channel : Option SimpleWirelessChannel)
    (gaurdTime : Time) (c : TdmaController) :
    (c.setGaurdTime channel gaurdTime).slotTime = c.slotTime := by
  simp only [setGaurdTime]

@[simp] theorem getInterFrameTimeInterval_setGaurdTime (channel : Option SimpleWirelessChannel)
    (gaurdTime : Time) (c : TdmaController) :
    (c.setGaurdTime channel gaurdTime).getInterFrameTimeInterval = c.getInterFrameTimeInterval := by
  simp only [setGaurdTime, getInterFrameTimeInterval]

end TdmaController

end SAeroRP
