import Mathlib.Analysis.Real.Pi.Irrational
import Mathlib.Analysis.SpecialFunctions.Complex.Arg
import Mathlib.Analysis.SpecialFunctions.Trigonometric.Complex

/-! Directions in the plane. The bearing of a vector is its angle from the first axis,
as atan2 returns it. The length of a vector times the cosine of the angle between it and
a direction is its component along that direction. A cosine of a multiple of an angle
agrees with the cosine of the angle itself, or vanishes, on a discrete set of angles. -/

namespace SAeroRP.Library

open Real

/-- The angle of the vector `(x, y)` from the first axis, in `(-π, π]`; 0 for the null
vector. -/
noncomputable def atan2 (y x : ℝ) : ℝ := Complex.arg ⟨x, y⟩

/-- The length of the vector `(x, y)`. -/
noncomputable def length2 (x y : ℝ) : ℝ := √(x * x + y * y)

theorem length2_eq_norm (x y : ℝ) : length2 x y = ‖(⟨x, y⟩ : ℂ)‖ := by
  rw [length2, Complex.norm_def, Complex.normSq_apply]

theorem length2_pos {x y : ℝ} (h : x ≠ 0 ∨ y ≠ 0) : 0 < length2 x y := by
  rw [length2_eq_norm, norm_pos_iff]
  intro h0
  have hre : x = 0 := congrArg Complex.re h0
  have him : y = 0 := congrArg Complex.im h0
  exact h.elim (· hre) (· him)

theorem length2_mul_self (x y : ℝ) : length2 x y * length2 x y = x * x + y * y :=
  mul_self_sqrt (add_nonneg (mul_self_nonneg x) (mul_self_nonneg y))

theorem length2_mul (s x y : ℝ) : length2 (s * x) (s * y) = |s| * length2 x y := by
  have hsum : s * x * (s * x) + s * y * (s * y) = s ^ 2 * (x * x + y * y) := by ring
  rw [length2, length2, hsum, sqrt_mul (sq_nonneg s), sqrt_sq_eq_abs]

theorem length2_mul_cos_atan2 (x y : ℝ) : length2 x y * cos (atan2 y x) = x := by
  rw [length2_eq_norm]
  exact Complex.norm_mul_cos_arg ⟨x, y⟩

theorem length2_mul_sin_atan2 (x y : ℝ) : length2 x y * sin (atan2 y x) = y := by
  rw [length2_eq_norm]
  exact Complex.norm_mul_sin_arg ⟨x, y⟩

/-- The product of two lengths and the cosine of the angle between is the dot product. -/
theorem length2_mul_length2_mul_cos (vx vy dx dy : ℝ) :
    length2 vx vy * length2 dx dy * cos (atan2 vy vx - atan2 dy dx) = vx * dx + vy * dy := by
  calc length2 vx vy * length2 dx dy * cos (atan2 vy vx - atan2 dy dx)
      = length2 vx vy * cos (atan2 vy vx) * (length2 dx dy * cos (atan2 dy dx)) +
          length2 vx vy * sin (atan2 vy vx) * (length2 dx dy * sin (atan2 dy dx)) := by
        rw [cos_sub]
        ring
    _ = vx * dx + vy * dy := by
        simp only [length2_mul_cos_atan2, length2_mul_sin_atan2]

/-- The component of a vector along a direction. -/
theorem length2_mul_cos {vx vy dx dy : ℝ} (h : dx ≠ 0 ∨ dy ≠ 0) :
    length2 vx vy * cos (atan2 vy vx - atan2 dy dx) = (vx * dx + vy * dy) / length2 dx dy := by
  rw [eq_div_iff (length2_pos h).ne', mul_right_comm]
  exact length2_mul_length2_mul_cos vx vy dx dy

/-! ### Multiples of an angle -/

/-- A multiple of an angle has the cosine of the angle itself at the whole multiples of two
angles. -/
theorem cos_mul_eq_cos_iff {k : ℝ} (hsub : k - 1 ≠ 0) (hadd : k + 1 ≠ 0) {x : ℝ} :
    cos (k * x) = cos x ↔ ∃ n : ℤ, x = n * (2 * π / (k - 1)) ∨ x = n * (2 * π / (k + 1)) := by
  rw [eq_comm, cos_eq_cos_iff]
  refine exists_congr fun n => or_congr ?_ ?_
  · rw [← mul_div_assoc, eq_div_iff hsub]
    constructor <;> intro h <;> linarith
  · rw [← mul_div_assoc, eq_div_iff hadd]
    constructor <;> intro h <;> linarith

/-- No whole number but 0 is a whole multiple of π. -/
theorem int_mul_pi_ne {m n : ℤ} (hn : n ≠ 0) : m * π ≠ n := by
  intro h
  by_cases hm : m = 0
  · rw [hm, Int.cast_zero, zero_mul] at h
    exact hn (by exact_mod_cast h.symm)
  · exact (irrational_pi.intCast_mul hm).ne_int n h

end SAeroRP.Library
