import Mathlib.Algebra.Order.Ring.Nat
import Mathlib.Data.Finset.Card
import Mathlib.Order.Interval.Finset.Nat

/-! Maximal stretches of equal values of a function on the natural numbers. A loop
that counts while a condition holds finds the length of one; going from each
stretch to the next covers every number once. -/

namespace SAeroRP.Library

/-! ### Counting -/

/-- Counts on from `n` while `p` holds, `fuel` times at most. -/
def countWhile (p : ℕ → Prop) [DecidablePred p] : ℕ → ℕ → ℕ
  | 0, n => n
  | fuel + 1, n => if p n then countWhile p fuel (n + 1) else n

section
variable {p : ℕ → Prop} [DecidablePred p]

theorem le_countWhile (fuel n : ℕ) : n ≤ countWhile p fuel n := by
  induction fuel generalizing n with
  | zero => exact le_rfl
  | succ fuel ih =>
    rw [countWhile]
    split_ifs
    · exact (Nat.le_succ n).trans (ih (n + 1))
    · exact le_rfl

/-- The condition holds of everything that was counted. -/
theorem of_lt_countWhile (fuel n : ℕ) : ∀ m, n ≤ m → m < countWhile p fuel n → p m := by
  induction fuel generalizing n with
  | zero =>
    intro m hm hlt
    exact absurd hm (not_le.mpr hlt)
  | succ fuel ih =>
    intro m hm hlt
    rw [countWhile] at hlt
    split_ifs at hlt with hn
    · rcases hm.eq_or_lt with rfl | hm
      · exact hn
      · exact ih (n + 1) m hm hlt
    · omega

/-- Counting stops where the condition fails, or where the fuel ends. -/
theorem not_countWhile_or (fuel n : ℕ) :
    ¬ p (countWhile p fuel n) ∨ countWhile p fuel n = n + fuel := by
  induction fuel generalizing n with
  | zero => exact .inr rfl
  | succ fuel ih =>
    rw [countWhile]
    split_ifs with hn
    · refine (ih (n + 1)).imp id fun h => ?_
      omega
    · exact .inl hn

/-- Fuel for as many numbers as can meet the condition is enough. -/
theorem not_countWhile {s : Finset ℕ} (hs : ∀ m, p m → m ∈ s) {fuel : ℕ} (hfuel : s.card ≤ fuel)
    (n : ℕ) : ¬ p (countWhile p fuel n) := by
  intro hp
  have hend := (not_countWhile_or fuel n).resolve_left (not_not.mpr hp)
  have hsub : Finset.Icc n (n + fuel) ⊆ s := by
    intro m hm
    obtain ⟨hle, hge⟩ := Finset.mem_Icc.mp hm
    rw [← hend] at hge
    rcases hge.eq_or_lt with rfl | hlt
    · exact hs _ hp
    · exact hs m (of_lt_countWhile fuel n m hle hlt)
  have hcard := Finset.card_le_card hsub
  rw [Nat.card_Icc] at hcard
  omega

end

/-! ### Stretches -/

variable {α : Type*} {f : ℕ → α}

/-- `f` is constant on the `n` numbers from `a` on, and no further. -/
structure IsStretch (f : ℕ → α) (a n : ℕ) : Prop where
  pos : 0 < n
  const : ∀ m, a ≤ m → m < a + n → f m = f a
  ends : f (a + n) ≠ f a

/-- A stretch stops before a number whose value is new. -/
theorem IsStretch.add_le {a n b : ℕ} (h : IsStretch f a n) (hab : a < b)
    (hb : ∀ m, m < b → f m ≠ f b) : a + n ≤ b := by
  by_contra hlt
  exact hb a hab (h.const b hab.le (not_le.mp hlt)).symm

theorem IsStretch.unique {a n m : ℕ} (h : IsStretch f a n) (h' : IsStretch f a m) : n = m := by
  refine (lt_trichotomy n m).resolve_left (fun hlt => ?_) |>.resolve_right fun hlt => ?_
  · exact h.ends (h'.const (a + n) (Nat.le_add_right a n) (by omega))
  · exact h'.ends (h.const (a + m) (Nat.le_add_right a m) (by omega))

/-- `Stretches f a l b`: the list `l` of first numbers and lengths leads from `a` to
`b`, one stretch after the other. -/
inductive Stretches (f : ℕ → α) : ℕ → List (ℕ × ℕ) → ℕ → Prop
  | nil (a : ℕ) : Stretches f a [] a
  | cons {a n b : ℕ} {l : List (ℕ × ℕ)} (h : IsStretch f a n) (hl : Stretches f (a + n) l b) :
      Stretches f a ((a, n) :: l) b

namespace Stretches

variable {a b : ℕ} {l : List (ℕ × ℕ)}

theorem add_sum (h : Stretches f a l b) : a + (l.map Prod.snd).sum = b := by
  induction h with
  | nil => rfl
  | @cons a n b l _ _ ih =>
    rw [List.map_cons, List.sum_cons]
    omega

/-- Every number from `a` to `b` is in one stretch, in increasing order. -/
theorem flatMap_range' (h : Stretches f a l b) :
    (l.flatMap fun s => List.range' s.1 s.2) = List.range' a (b - a) := by
  induction h with
  | nil => simp
  | @cons a n b l _ hl ih =>
    have hsum := hl.add_sum
    rw [List.flatMap_cons, ih, List.range'_append_1]
    congr 1
    omega

/-- A stretch has another value than the one before it. -/
theorem isChain (h : Stretches f a l b) : l.IsChain fun s t => f s.1 ≠ f t.1 := by
  induction h with
  | nil => exact .nil
  | cons h hl ih =>
    cases hl with
    | nil => exact .singleton _
    | cons => exact .cons_cons h.ends.symm ih

end Stretches

end SAeroRP.Library
