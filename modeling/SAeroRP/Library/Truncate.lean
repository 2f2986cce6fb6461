import Mathlib.Data.Rat.Floor

/-! Rounding toward zero: the whole part of a number, without its fraction. It commutes
with negation, so the whole part of a negative number is read off its magnitude, and it
keeps the sign. -/

namespace SAeroRP.Library

section
variable {α : Type*} [Ring α] [LinearOrder α] [FloorRing α]

/-- The whole part of a number, rounded toward zero. -/
def truncate (x : α) : ℤ := if 0 ≤ x then ⌊x⌋ else ⌈x⌉

theorem truncate_of_nonneg {x : α} (h : 0 ≤ x) : truncate x = ⌊x⌋ := if_pos h

theorem truncate_of_neg {x : α} (h : x < 0) : truncate x = ⌈x⌉ := if_neg h.not_ge

theorem truncate_nonneg {x : α} (h : 0 ≤ x) : 0 ≤ truncate x := by
  rw [truncate_of_nonneg h]
  exact Int.floor_nonneg.mpr h

theorem truncate_lt {x : α} {n : ℤ} (h0 : 0 ≤ x) (hn : x < n) : truncate x < n := by
  rw [truncate_of_nonneg h0]
  exact Int.floor_lt.mpr hn

variable [IsStrictOrderedRing α]

@[simp] theorem truncate_neg (x : α) : truncate (-x) = -truncate x := by
  rcases lt_trichotomy x 0 with h | rfl | h
  · rw [truncate_of_neg h, truncate_of_nonneg (neg_nonneg.mpr h.le), Int.floor_neg]
  · simp [truncate]
  · rw [truncate_of_nonneg h.le, truncate_of_neg (neg_neg_of_pos h), Int.ceil_neg]

/-- Rounding toward zero keeps the sign. -/
theorem truncate_nonpos {x : α} (h : x ≤ 0) : truncate x ≤ 0 := by
  have := truncate_nonneg (neg_nonneg.mpr h)
  rw [truncate_neg] at this
  exact neg_nonneg.mp this

/-- A whole part below 0 means a number of at most -1. -/
theorem truncate_neg_iff {x : α} : truncate x < 0 ↔ x ≤ -1 := by
  constructor
  · intro h
    have hneg : x < 0 := lt_of_not_ge fun h0 => h.not_ge (truncate_nonneg h0)
    rw [truncate_of_neg hneg] at h
    have hle : ⌈x⌉ ≤ -1 := Int.le_sub_one_of_lt h
    simpa using Int.ceil_le.mp hle
  · intro h
    have hneg : x < 0 := h.trans_lt (neg_neg_of_pos one_pos)
    have hle : ⌈x⌉ ≤ -1 := Int.ceil_le.mpr (by simpa using h)
    rw [truncate_of_neg hneg]
    exact hle.trans_lt (by decide)

end

/-- The quotient of numerator and denominator, rounded toward zero. -/
theorem tdiv_num_den (x : ℚ) : x.num.tdiv x.den = truncate x := by
  rcases le_or_gt 0 x with h | h
  · rw [truncate_of_nonneg h, Rat.floor_def', Int.tdiv_eq_ediv_of_nonneg (Rat.num_nonneg.mpr h)]
  · have hnum : 0 ≤ -x.num := neg_nonneg.mpr (Rat.num_neg.mpr h).le
    have hneg : (-x.num).tdiv x.den = ⌊-x⌋ := by
      rw [Rat.floor_def', Rat.neg_num, Rat.neg_den, Int.tdiv_eq_ediv_of_nonneg hnum]
    rw [truncate_of_neg h, ← neg_neg ⌈x⌉, ← Int.floor_neg, ← hneg, Int.neg_tdiv, neg_neg]

end SAeroRP.Library
