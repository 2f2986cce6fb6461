import SAeroRP.Tables.RelativeMotion

/-! What the relative speed says. It should be the component of the velocity along the
direction to the destination. Because the angle is in degrees when its cosine is taken,
it is that only for a node at rest and at isolated angles. -/

namespace SAeroRP

open Real Library

namespace NeighborTableEntry

section ClosingSpeed
variable (dstPosition nodeVelocity nodePosition : RealVector)

/-- The horizontal unit vector from the node to the destination. -/
noncomputable def direction : ℝ × ℝ :=
  let dx := dstPosition.x - nodePosition.x
  let dy := dstPosition.y - nodePosition.y
  (dx / length2 dx dy, dy / length2 dx dy)

/-- The component of the velocity toward the destination. -/
noncomputable def closingSpeed : ℝ :=
  nodeVelocity.x * (direction dstPosition nodePosition).1 +
    nodeVelocity.y * (direction dstPosition nodePosition).2

/-- The node flies along the line to the destination, at `s` times its length. -/
def FliesStraight (s : ℝ) : Prop :=
  nodeVelocity.x = s * (dstPosition.x - nodePosition.x) ∧
    nodeVelocity.y = s * (dstPosition.y - nodePosition.y)

/-- The relative speed is the closing speed. -/
structure ClosesIn : Prop where
  closing : calculateRelativeSpeed dstPosition nodeVelocity nodePosition =
    closingSpeed dstPosition nodeVelocity nodePosition
  straightAt : ∀ s > 0, FliesStraight dstPosition nodeVelocity nodePosition s →
    calculateRelativeSpeed dstPosition nodeVelocity nodePosition = nodeVelocity.length
  straightAway : ∀ s < 0, FliesStraight dstPosition nodeVelocity nodePosition s →
    calculateRelativeSpeed dstPosition nodeVelocity nodePosition = -nodeVelocity.length

variable {dstPosition nodeVelocity nodePosition}

theorem closingSpeed_eq (h : dstPosition.x ≠ nodePosition.x ∨ dstPosition.y ≠ nodePosition.y)
    (hz : nodeVelocity.z = 0) :
    closingSpeed dstPosition nodeVelocity nodePosition = nodeVelocity.length *
      cos (heading nodeVelocity - bearing dstPosition nodePosition) := by
  have hd : dstPosition.x - nodePosition.x ≠ 0 ∨ dstPosition.y - nodePosition.y ≠ 0 :=
    h.imp sub_ne_zero.mpr sub_ne_zero.mpr
  rw [RealVector.length_of_horizontal hz, heading, bearing, length2_mul_cos hd, add_div,
    mul_div_assoc, mul_div_assoc]
  rfl

/-- Along the line to the destination the closing speed is the speed, with the sign of the
direction. -/
theorem closingSpeed_of_straight {s : ℝ}
    (h : dstPosition.x ≠ nodePosition.x ∨ dstPosition.y ≠ nodePosition.y)
    (hz : nodeVelocity.z = 0) (hs : FliesStraight dstPosition nodeVelocity nodePosition s) :
    |s| * closingSpeed dstPosition nodeVelocity nodePosition = s * nodeVelocity.length := by
  obtain ⟨hx, hy⟩ := hs
  have hpos : 0 < length2 (dstPosition.x - nodePosition.x) (dstPosition.y - nodePosition.y) :=
    length2_pos (h.imp sub_ne_zero.mpr sub_ne_zero.mpr)
  rw [RealVector.length_of_horizontal hz, closingSpeed, direction, hx, hy, length2_mul]
  generalize dstPosition.x - nodePosition.x = dx at hpos
  generalize dstPosition.y - nodePosition.y = dy at hpos
  calc |s| * (s * dx * (dx / length2 dx dy) + s * dy * (dy / length2 dx dy))
      = s * |s| * ((dx * dx + dy * dy) / length2 dx dy) := by ring
    _ = s * (|s| * length2 dx dy) := by
        rw [← length2_mul_self, mul_div_cancel_right₀ _ hpos.ne', mul_assoc]

theorem closesIn_iff_closing
    (h : dstPosition.x ≠ nodePosition.x ∨ dstPosition.y ≠ nodePosition.y)
    (hz : nodeVelocity.z = 0) :
    ClosesIn dstPosition nodeVelocity nodePosition ↔
      calculateRelativeSpeed dstPosition nodeVelocity nodePosition =
        closingSpeed dstPosition nodeVelocity nodePosition := by
  refine ⟨ClosesIn.closing, fun hc => ⟨hc, fun s hs hflies => ?_, fun s hs hflies => ?_⟩⟩
  · have hstraight := closingSpeed_of_straight h hz hflies
    rw [abs_of_pos hs] at hstraight
    rw [hc, mul_left_cancel₀ hs.ne' hstraight]
  · have hstraight := closingSpeed_of_straight h hz hflies
    rw [abs_of_neg hs, neg_mul, neg_eq_iff_eq_neg, ← mul_neg] at hstraight
    rw [hc, mul_left_cancel₀ hs.ne hstraight]

/-- The relative speed is the closing speed of a node at rest, and where the angle between
velocity and destination is a whole multiple of one of two angles, the first of them about
6.4 and the second about 6.2 degrees. -/
theorem closesIn_iff (h : dstPosition.x ≠ nodePosition.x ∨ dstPosition.y ≠ nodePosition.y)
    (hz : nodeVelocity.z = 0) :
    ClosesIn dstPosition nodeVelocity nodePosition ↔
      nodeVelocity = ⟨0, 0, 0⟩ ∨ ∃ n : ℤ,
        heading nodeVelocity - bearing dstPosition nodePosition =
            n * (2 * π ^ 2 / (180 - π)) ∨
          heading nodeVelocity - bearing dstPosition nodePosition =
            n * (2 * π ^ 2 / (180 + π)) := by
  have hpi := pi_pos
  have hfour := pi_le_four
  have hsub : 180 / π - 1 = (180 - π) / π := by field_simp
  have hadd : 180 / π + 1 = (180 + π) / π := by field_simp
  have hsub_ne : 180 / π - 1 ≠ 0 := by
    rw [hsub]
    exact (div_pos (by linarith) hpi).ne'
  have hadd_ne : 180 / π + 1 ≠ 0 := by positivity
  rw [closesIn_iff_closing h hz, calculateRelativeSpeed_eq, closingSpeed_eq h hz,
    mul_eq_mul_left_iff, or_comm, RealVector.length_eq_zero, cos_mul_eq_cos_iff hsub_ne hadd_ne,
    hsub, hadd, div_div_eq_mul_div, div_div_eq_mul_div, mul_assoc, ← sq]

/-- A node that flies straight at its destination. -/
theorem closesIn_iff_straight : ClosesIn ⟨1, 0, 0⟩ ⟨1, 0, 0⟩ ⟨0, 0, 0⟩ :=
  (closesIn_iff (.inl (by norm_num)) rfl).mpr
    (.inr ⟨0, .inl (by simp [heading, bearing])⟩)

/-- A node that flies straight away from its destination. -/
theorem flying_away_not_closesIn : ¬ ClosesIn ⟨-1, 0, 0⟩ ⟨1, 0, 0⟩ ⟨0, 0, 0⟩ := by
  intro h
  have haway := h.straightAway (-1) (by norm_num) ⟨by norm_num, by norm_num⟩
  have hlength : RealVector.length ⟨1, 0, 0⟩ = 1 := by simp [RealVector.length]
  have hheading : heading ⟨1, 0, 0⟩ = 0 := Complex.arg_one
  have hbearing : bearing ⟨-1, 0, 0⟩ ⟨0, 0, 0⟩ = π := by
    have hminus : (⟨-1 - 0, 0 - 0⟩ : ℂ) = -1 := by
      apply Complex.ext <;> simp
    rw [bearing, atan2, hminus, Complex.arg_neg_one]
  have hangle : 180 / π * (0 - π) = -180 := by
    have := pi_ne_zero
    field_simp
    ring
  rw [calculateRelativeSpeed_eq, hlength, hheading, hbearing, hangle, one_mul, cos_neg,
    cos_eq_neg_one_iff] at haway
  obtain ⟨k, hk⟩ := haway
  refine int_mul_pi_ne (m := 1 + 2 * k) (n := 180) (by norm_num) ?_
  push_cast
  linarith

end ClosingSpeed

end NeighborTableEntry

end SAeroRP
