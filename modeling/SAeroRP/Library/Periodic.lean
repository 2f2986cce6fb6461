import Mathlib.Algebra.Order.BigOperators.Group.List
import Mathlib.Order.Interval.Finset.Nat
import Mathlib.Order.Monotone.Basic

/-! Events that follow each other after gaps, when a list of gaps is repeated for ever.
The offset of an event is the sum of all gaps before it. -/

namespace SAeroRP.Library

/-! ### Residues -/

/-- Before `m` there is a number with a given remainder, less than a period away. -/
theorem exists_mod_eq {n r m : ℕ} (hr : r < n) (hm : r < m) : ∃ k < m, k % n = r ∧ m ≤ k + n := by
  have hdiv := Nat.div_add_mod (m - 1 - r) n
  have hmod := Nat.mod_lt (m - 1 - r) (Nat.zero_lt_of_lt hr)
  refine ⟨r + n * ((m - 1 - r) / n), by omega, ?_, by omega⟩
  rw [Nat.add_mul_mod_self_left, Nat.mod_eq_of_lt hr]

/-- The remainders of `n` successive numbers are all remainders. -/
theorem perm_map_mod (a n : ℕ) : ((List.range' a n).map (· % n)).Perm (List.range n) := by
  have hmod := Nat.multiset_Ico_map_mod a n
  have hrange : Multiset.Ico a (a + n) = (List.range' a n : Multiset ℕ) := by
    show ((List.range' a (a + n - a) : List ℕ) : Multiset ℕ) = _
    rw [Nat.add_sub_cancel_left]
  rw [hrange] at hmod
  exact Multiset.coe_eq_coe.mp hmod

/-- A list in each of whose blocks of `n` entries `p` holds once has as many such entries as
blocks. -/
theorem le_countP_of_blocks {α : Type*} {p : α → Bool} {n : ℕ} (q : ℕ) {l : List α}
    (hl : q * n ≤ l.length)
    (h : ∀ k < q, ∃ i, k * n ≤ i ∧ i < (k + 1) * n ∧ ∃ a, l[i]? = some a ∧ p a) :
    q ≤ l.countP p := by
  induction q generalizing l with
  | zero => exact Nat.zero_le _
  | succ q ih =>
    rw [Nat.succ_mul] at hl
    obtain ⟨i, -, hi, a, ha, hp⟩ := h 0 (Nat.succ_pos q)
    rw [Nat.zero_add, Nat.one_mul] at hi
    have hfirst : 0 < (l.take n).countP p :=
      List.countP_pos_iff.mpr ⟨a, List.mem_of_getElem? ((List.getElem?_take_of_lt hi).trans ha), hp⟩
    have hrest : q ≤ (l.drop n).countP p := by
      refine ih (by rw [List.length_drop]; omega) fun k hk => ?_
      obtain ⟨i, hle, hlt, a, ha, hp⟩ := h (k + 1) (Nat.succ_lt_succ hk)
      rw [Nat.succ_mul] at hle hlt
      refine ⟨i - n, by omega, by omega, a, ?_, hp⟩
      rw [List.getElem?_drop, Nat.add_sub_cancel' (by omega), ha]
    rw [← List.take_append_drop n l, List.countP_append]
    omega

/-! ### Offsets -/

section
variable {α : Type*} [AddCommMonoid α]

/-- The sum of the first `k` gaps of the repeated list. -/
def offset (gaps : List α) (k : ℕ) : α :=
  (k / gaps.length) • gaps.sum + (gaps.take (k % gaps.length)).sum

variable {gaps : List α}

@[simp] theorem offset_zero : offset gaps 0 = 0 := by
  simp [offset]

/-- A period later all gaps have passed once more. -/
theorem offset_add_length (h : gaps ≠ []) (k : ℕ) :
    offset gaps (k + gaps.length) = offset gaps k + gaps.sum := by
  have hpos : 0 < gaps.length := List.length_pos_iff.mpr h
  rw [offset, Nat.add_div_right k hpos, Nat.add_mod_right, succ_nsmul, add_right_comm, offset]

theorem offset_of_lt {k : ℕ} (h : k < gaps.length) : offset gaps k = (gaps.take k).sum := by
  rw [offset, Nat.div_eq_of_lt h, Nat.mod_eq_of_lt h, zero_nsmul, zero_add]

theorem offset_length (h : gaps ≠ []) : offset gaps gaps.length = gaps.sum := by
  have hperiod := offset_add_length h 0
  rwa [zero_add, offset_zero, zero_add] at hperiod

theorem offset_mul_length_add (h : gaps ≠ []) (q r : ℕ) :
    offset gaps (q * gaps.length + r) = q • gaps.sum + offset gaps r := by
  induction q with
  | zero => rw [Nat.zero_mul, Nat.zero_add, zero_nsmul, zero_add]
  | succ q ih =>
    rw [Nat.succ_mul, Nat.add_right_comm, offset_add_length h, ih, succ_nsmul, add_right_comm]

/-- The gap after an event leads to the next one. -/
theorem offset_succ {k : ℕ} {g : α} (h : gaps[k % gaps.length]? = some g) :
    offset gaps (k + 1) = offset gaps k + g := by
  obtain ⟨hr, -⟩ := List.getElem?_eq_some_iff.mp h
  have hne : gaps ≠ [] := List.ne_nil_of_length_pos (Nat.zero_lt_of_lt hr)
  have hsucc : offset gaps (k % gaps.length + 1) = offset gaps (k % gaps.length) + g := by
    have htake : (gaps.take (k % gaps.length + 1)).sum = (gaps.take (k % gaps.length)).sum + g := by
      rw [List.take_add_one, h, List.sum_append]
      simp
    rw [offset_of_lt hr, ← htake]
    rcases Nat.lt_or_ge (k % gaps.length + 1) gaps.length with hlt | hge
    · exact offset_of_lt hlt
    · -- the gap is the last of its period
      have hlast : k % gaps.length + 1 = gaps.length := by omega
      rw [hlast, offset_length hne, List.take_length]
  have hk : k = k / gaps.length * gaps.length + k % gaps.length := (Nat.div_add_mod' _ _).symm
  calc offset gaps (k + 1)
      = offset gaps (k / gaps.length * gaps.length + (k % gaps.length + 1)) := by
        rw [← Nat.add_assoc, ← hk]
    _ = offset gaps k + g := by
        rw [offset_mul_length_add hne, hsucc, ← add_assoc, ← offset_mul_length_add hne, ← hk]

end

/-! ### Order -/

section
variable {α : Type*} [AddCommMonoid α] [PartialOrder α] [IsOrderedAddMonoid α] {gaps : List α}

theorem offset_mono (h : ∀ g ∈ gaps, 0 ≤ g) : Monotone (offset gaps) := by
  refine monotone_nat_of_le_succ fun k => ?_
  by_cases hne : gaps = []
  · simp [hne, offset]
  · have hr : k % gaps.length < gaps.length := Nat.mod_lt k (List.length_pos_iff.mpr hne)
    rw [offset_succ (List.getElem?_eq_getElem hr)]
    exact le_add_of_nonneg_right (h _ (List.getElem_mem hr))

/-- Of the first `m` events the last with a given place in the period is at most a period
before event `m`. -/
theorem exists_le_offset_add_sum (h : ∀ g ∈ gaps, 0 ≤ g) {r m : ℕ} (hr : r < gaps.length)
    (hm : r < m) :
    ∃ k < m, k % gaps.length = r ∧ offset gaps m ≤ offset gaps k + gaps.sum := by
  obtain ⟨k, hk, hmod, hle⟩ := exists_mod_eq hr hm
  have hne : gaps ≠ [] := List.ne_nil_of_length_pos (Nat.zero_lt_of_lt hr)
  exact ⟨k, hk, hmod, (offset_mono h hle).trans_eq (offset_add_length hne k)⟩

end

end SAeroRP.Library
