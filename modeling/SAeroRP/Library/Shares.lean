import Mathlib.Data.Finset.Card
import Mathlib.Order.Interval.Finset.Nat
import Mathlib.Tactic.Ring

/-! Sharing out the numbers from 1 to `n` among `k` holders: a block of `n / k` numbers for
each, one after the other, and then one of the numbers that are left for each of the first
holders. Every number has one holder, and the shares differ by one number at most. -/

namespace SAeroRP.Library

/-- Holder `i` has the number `j`. -/
def Share (k n i j : ℕ) : Prop :=
  n / k * i < j ∧ j ≤ n / k * i + n / k ∨ i < n % k ∧ j = n / k * k + i + 1

instance (k n i j : ℕ) : Decidable (Share k n i j) := inferInstanceAs (Decidable (_ ∨ _))

variable {k n i i' j : ℕ}

/-- The blocks come before what is left. -/
theorem block_le (hi : i < k) (q : ℕ) : q * i + q ≤ q * k := by
  rw [← Nat.mul_succ]
  exact Nat.mul_le_mul_left q hi

theorem Share.pos (h : Share k n i j) : 1 ≤ j := by
  obtain ⟨hlt, -⟩ | ⟨-, rfl⟩ := h
  · omega
  · omega

theorem Share.le (hi : i < k) (h : Share k n i j) : j ≤ n := by
  have hn := Nat.div_add_mod' n k
  have hblock := block_le hi (n / k)
  obtain ⟨-, hle⟩ | ⟨hlt, rfl⟩ := h
  · omega
  · omega

theorem exists_share (hk : 0 < k) (hj : 1 ≤ j) (hn : j ≤ n) : ∃ i < k, Share k n i j := by
  have hsum := Nat.div_add_mod' n k
  have hmod := Nat.mod_lt n hk
  by_cases hblock : j ≤ n / k * k
  · have hq : 0 < n / k := by
      by_contra hq
      rw [Nat.eq_zero_of_not_pos hq, Nat.zero_mul] at hblock
      omega
    have hdiv := Nat.div_add_mod (j - 1) (n / k)
    have hlt := Nat.mod_lt (j - 1) hq
    exact ⟨(j - 1) / (n / k), Nat.div_lt_of_lt_mul (by omega), .inl ⟨by omega, by omega⟩⟩
  · exact ⟨j - n / k * k - 1, by omega, .inr ⟨by omega, by omega⟩⟩

theorem Share.unique (hi : i < k) (hi' : i' < k) (h : Share k n i j) (h' : Share k n i' j) :
    i = i' := by
  have hle := block_le hi (n / k)
  have hle' := block_le hi' (n / k)
  obtain ⟨hlt, hend⟩ | ⟨-, rfl⟩ := h
  · obtain ⟨hlt', hend'⟩ | ⟨-, rfl⟩ := h'
    · -- one block would end before the other begins
      rcases lt_trichotomy i i' with hlt'' | rfl | hlt''
      · have hblock := block_le hlt'' (n / k)
        omega
      · rfl
      · have hblock := block_le hlt'' (n / k)
        omega
    · omega
  · obtain ⟨-, hend'⟩ | ⟨-, heq⟩ := h'
    · omega
    · omega

/-- A share is a block, and one of the numbers that are left for the first holders. -/
theorem card_share (hi : i < k) :
    ((Finset.Ico 1 (n + 1)).filter (Share k n i)).card = n / k + if i < n % k then 1 else 0 := by
  have hsum := Nat.div_add_mod' n k
  have hblock := block_le hi (n / k)
  have hmem : ∀ j, j ∈ (Finset.Ico 1 (n + 1)).filter (Share k n i) ↔ Share k n i j := by
    intro j
    rw [Finset.mem_filter, Finset.mem_Ico]
    exact ⟨fun h => h.2, fun h => ⟨⟨h.pos, Nat.lt_succ_of_le (h.le hi)⟩, h⟩⟩
  split_ifs with hleft
  · have hset : (Finset.Ico 1 (n + 1)).filter (Share k n i) =
        insert (n / k * k + i + 1) (Finset.Ioc (n / k * i) (n / k * i + n / k)) := by
      ext j
      rw [hmem, Finset.mem_insert, Finset.mem_Ioc, Share]
      tauto
    rw [hset, Finset.card_insert_of_notMem, Nat.card_Ioc, Nat.add_sub_cancel_left]
    rw [Finset.mem_Ioc]
    omega
  · have hset : (Finset.Ico 1 (n + 1)).filter (Share k n i) =
        Finset.Ioc (n / k * i) (n / k * i + n / k) := by
      ext j
      rw [hmem, Finset.mem_Ioc, Share]
      tauto
    rw [hset, Nat.card_Ioc, Nat.add_sub_cancel_left, Nat.add_zero]

/-- No share has two numbers more than another. -/
theorem card_share_le (hi : i < k) (hi' : i' < k) :
    ((Finset.Ico 1 (n + 1)).filter (Share k n i)).card ≤
      ((Finset.Ico 1 (n + 1)).filter (Share k n i')).card + 1 := by
  rw [card_share hi, card_share hi']
  split_ifs <;> omega

end SAeroRP.Library
