import SAeroRP.Library.Bearing

/-! The relative speed of a node toward a destination, in exact real arithmetic and with π
itself. The angles are computed in degrees, and the cosine takes its argument in radians. -/

namespace SAeroRP

open Real Library

/-- A vector of the simulator with real components. -/
@[ext] structure RealVector where
  x : ℝ
  y : ℝ
  z : ℝ

namespace RealVector

/-- The length of a vector. -/
noncomputable def length (v : RealVector) : ℝ := √(v.x * v.x + v.y * v.y + v.z * v.z)

theorem length_eq_zero {v : RealVector} : v.length = 0 ↔ v = ⟨0, 0, 0⟩ := by
  have hx := mul_self_nonneg v.x
  have hy := mul_self_nonneg v.y
  have hz := mul_self_nonneg v.z
  rw [length, sqrt_eq_zero (by positivity)]
  constructor
  · intro h
    have hxx : v.x * v.x = 0 := by linarith
    have hyy : v.y * v.y = 0 := by linarith
    have hzz : v.z * v.z = 0 := by linarith
    exact RealVector.ext (mul_self_eq_zero.mp hxx) (mul_self_eq_zero.mp hyy)
      (mul_self_eq_zero.mp hzz)
  · rintro rfl
    simp

theorem length_of_horizontal {v : RealVector} (h : v.z = 0) : v.length = length2 v.x v.y := by
  rw [length, length2, h, mul_zero, add_zero]

end RealVector

namespace NeighborTableEntry

variable (dstPosition nodeVelocity nodePosition : RealVector)

/-- The direction of a velocity, in radians. -/
noncomputable def heading : ℝ := atan2 nodeVelocity.y nodeVelocity.x

/-- The direction of the destination from the node, in radians. -/
noncomputable def bearing : ℝ :=
  atan2 (dstPosition.y - nodePosition.y) (dstPosition.x - nodePosition.x)

noncomputable def calculateRelativeSpeed : ℝ :=
  let vel := nodeVelocity.length
  let theta := atan2 nodeVelocity.y nodeVelocity.x * 180 / π
  let thetadot :=
    atan2 (dstPosition.y - nodePosition.y) (dstPosition.x - nodePosition.x) * 180 / π
  vel * cos (theta - thetadot)

/-- The cosine is that of the angle between velocity and destination, converted to
degrees. -/
theorem calculateRelativeSpeed_eq :
    calculateRelativeSpeed dstPosition nodeVelocity nodePosition = nodeVelocity.length *
      cos (180 / π * (heading nodeVelocity - bearing dstPosition nodePosition)) := by
  simp only [calculateRelativeSpeed, heading, bearing]
  congr 2
  ring

end NeighborTableEntry

end SAeroRP
