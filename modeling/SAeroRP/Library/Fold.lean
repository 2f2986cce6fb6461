import Mathlib.Data.List.Basic
import Mathlib.Tactic.Push

/-! Folds of checked steps, counted loops, and folds in which the first step that sets a value wins. -/

namespace SAeroRP.Library

variable {σ α β V : Type*}

/-- Steps that fail on a check of the element alone succeed together when all
elements pass. -/
theorem foldlM_ite {ε : Type*} (check : α → Prop) [DecidablePred check] (e : ε) (f : σ → α → σ)
    (l : List α) (s : σ) :
    l.foldlM (fun s a => if check a then .ok (f s a) else Except.error e) s =
      if ∀ a ∈ l, check a then .ok (l.foldl f s) else .error e := by
  induction l generalizing s with
  | nil => simp [pure, Except.pure]
  | cons a l ih =>
    rw [List.foldlM_cons, List.foldl_cons]
    by_cases ha : check a
    · rw [if_pos ha]
      simp only [List.forall_mem_cons, ha, true_and]
      exact ih (f s a)
    · rw [if_neg ha, if_neg fun h => ha (h a List.mem_cons_self)]
      rfl

/-- A counted loop that is in state `I k` before its round `k`. -/
theorem foldlM_range {ε : Type*} (f : σ → ℕ → Except ε σ) (I : ℕ → σ) {n : ℕ}
    (h : ∀ k < n, f (I k) k = .ok (I (k + 1))) : (List.range n).foldlM f (I 0) = .ok (I n) := by
  induction n with
  | zero => rfl
  | succ n ih =>
    rw [List.range_succ, List.foldlM_append, ih fun k hk => h k (Nat.lt_succ_of_lt hk)]
    show List.foldlM f (I n) [n] = _
    rw [List.foldlM_cons, h n (Nat.lt_succ_self n)]
    rfl

/-- What every step keeps holds at the end. -/
theorem of_foldlM {ε : Type*} (P : σ → Prop) {f : σ → α → Except ε σ} {l : List α}
    (h : ∀ s a s', P s → f s a = .ok s' → P s') {s s' : σ} (hs : P s)
    (hfold : l.foldlM f s = .ok s') : P s' := by
  induction l generalizing s with
  | nil =>
    cases hfold
    exact hs
  | cons a l ih =>
    rw [List.foldlM_cons] at hfold
    cases hstep : f s a with
    | error e =>
      rw [hstep] at hfold
      cases hfold
    | ok t =>
      rw [hstep] at hfold
      exact ih (h s a t hs hstep) hfold

/-- A measure that every step lowers by the same number. -/
theorem measure_foldlM {ε : Type*} (μ : σ → ℕ) (n : ℕ) {f : σ → α → Except ε σ} {l : List α}
    (h : ∀ s a s', f s a = .ok s' → μ s = μ s' + n) {s s' : σ} (hfold : l.foldlM f s = .ok s') :
    μ s = μ s' + l.length * n := by
  induction l generalizing s with
  | nil =>
    cases hfold
    simp
  | cons a l ih =>
    rw [List.foldlM_cons] at hfold
    cases hstep : f s a with
    | error e =>
      rw [hstep] at hfold
      cases hfold
    | ok t =>
      rw [hstep] at hfold
      rw [h s a t hstep, ih hfold, List.length_cons, Nat.succ_mul]
      omega

/-- An error that no step gives. -/
theorem foldlM_ne_error {ε : Type*} {f : σ → α → Except ε σ} {e : ε} {l : List α}
    (h : ∀ s, ∀ a ∈ l, f s a ≠ .error e) (s : σ) : l.foldlM f s ≠ .error e := by
  induction l generalizing s with
  | nil => rintro ⟨⟩
  | cons a l ih =>
    obtain ⟨ha, hl⟩ : (∀ s, f s a ≠ .error e) ∧ ∀ s, ∀ b ∈ l, f s b ≠ .error e :=
      ⟨fun s => h s a List.mem_cons_self, fun s b hb => h s b (List.mem_cons_of_mem a hb)⟩
    rw [List.foldlM_cons]
    cases hstep : f s a with
    | error e' =>
      rintro heq
      cases heq
      exact ha s hstep
    | ok s' => exact ih hl s'

/-- If every step keeps what is set and otherwise sets what `w` says, then the result
is what was set, or what the first element sets. -/
theorem foldl_or (look : σ → Option V) (f : σ → α → σ) (w : α → Option V)
    (h : ∀ s a, look (f s a) = (look s).or (w a)) (l : List α) (s : σ) :
    look (l.foldl f s) = (look s).or (l.findSome? w) := by
  induction l generalizing s with
  | nil => simp
  | cons a l ih =>
    rw [List.foldl_cons, ih, h, Option.or_assoc, List.findSome?_cons]
    cases w a <;> rfl

/-- What no step changes is unchanged. -/
theorem foldl_same (look : σ → V) (f : σ → α → σ) (h : ∀ s a, look (f s a) = look s) (l : List α)
    (s : σ) : look (l.foldl f s) = look s := by
  induction l generalizing s with
  | nil => rfl
  | cons a l ih => rw [List.foldl_cons, ih, h]

/-- The first of the elements that set a value, all to the same. -/
theorem findSome?_ite (p : α → Prop) [DecidablePred p] (v : V) (l : List α) :
    (l.findSome? fun a => if p a then some v else none) = if ∃ a ∈ l, p a then some v else none := by
  induction l with
  | nil => simp
  | cons a l ih =>
    rw [List.findSome?_cons]
    by_cases ha : p a
    · simp [ha]
    · simp only [ha, if_false, ih, List.exists_mem_cons_iff, false_or]

/-! ### Numbered elements -/

theorem exists_mem_zipIdx (p : α → Prop) (l : List α) (n : ℕ) :
    (∃ d ∈ l.zipIdx n, p d.1) ↔ ∃ a ∈ l, p a := by
  constructor
  · rintro ⟨d, hd, hp⟩
    exact ⟨d.1, List.fst_mem_of_mem_zipIdx hd, hp⟩
  · rintro ⟨a, ha, hp⟩
    rw [← List.zipIdx_map_fst n l] at ha
    obtain ⟨d, hd, rfl⟩ := List.mem_map.mp ha
    exact ⟨d, hd, hp⟩

theorem forall_mem_zipIdx (p : α → Prop) (l : List α) (n : ℕ) :
    (∀ d ∈ l.zipIdx n, p d.1) ↔ ∀ a ∈ l, p a := by
  have h := not_congr (exists_mem_zipIdx (fun a => ¬ p a) l n)
  push Not at h
  exact h

end SAeroRP.Library
