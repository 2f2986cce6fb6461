import Mathlib.Data.List.TakeWhile

/-! The words of a text: its longest parts without separators. They are read off one after
the other, each with the separators in front of it. -/

namespace SAeroRP.Library

variable {α : Type*} (sep : α → Bool)

/-- The first word, which is empty if there is none, and what follows it. -/
def nextWord (l : List α) : List α × List α :=
  let l := l.dropWhile sep
  (l.takeWhile fun a => !sep a, l.dropWhile fun a => !sep a)

theorem length_nextWord_add (l : List α) :
    (nextWord sep l).1.length + (nextWord sep l).2.length = (l.dropWhile sep).length := by
  rw [← List.length_append]
  exact congrArg List.length List.takeWhile_append_dropWhile

variable {sep} in
theorem length_nextWord_lt {l : List α} (h : (nextWord sep l).1 ≠ []) :
    (nextWord sep l).2.length < l.length := by
  have hadd := length_nextWord_add sep l
  have hdrop := List.length_dropWhile_le sep l
  have hpos := List.length_pos_iff.mpr h
  omega

def words (l : List α) : List (List α) :=
  if _h : (nextWord sep l).1 = [] then []
  else (nextWord sep l).1 :: words (nextWord sep l).2
termination_by l.length
decreasing_by exact length_nextWord_lt _h

/-- A word that is followed by a separator or by nothing. -/
theorem nextWord_append {w rest : List α} (hw : ∀ a ∈ w, sep a = false) (hne : w ≠ [])
    (hrest : ∀ a ∈ rest.head?, sep a = true) : nextWord sep (w ++ rest) = (w, rest) := by
  have hdrop : (w ++ rest).dropWhile sep = w ++ rest := by
    cases w with
    | nil => exact absurd rfl hne
    | cons a w => rw [List.cons_append, List.dropWhile_cons_of_neg (by simp [hw a])]
  have hall : ∀ a ∈ w, (!sep a) = true := fun a ha => by simp [hw a ha]
  have htake : rest.takeWhile (fun a => !sep a) = [] := by
    cases rest with
    | nil => rfl
    | cons a rest => exact List.takeWhile_cons_of_neg (by simp [hrest a rfl])
  have hkeep : rest.dropWhile (fun a => !sep a) = rest := by
    cases rest with
    | nil => rfl
    | cons a rest => exact List.dropWhile_cons_of_neg (by simp [hrest a rfl])
  simp only [nextWord, hdrop, List.takeWhile_append_of_pos hall, List.dropWhile_append_of_pos hall,
    htake, hkeep, List.append_nil]

/-- A separator in front makes no difference. -/
theorem nextWord_cons {a : α} (ha : sep a = true) (l : List α) :
    nextWord sep (a :: l) = nextWord sep l := by
  simp only [nextWord, List.dropWhile_cons_of_pos ha]

section

theorem words_of_none {l : List α} (h : (nextWord sep l).1 = []) : words sep l = [] := by
  rw [words, dif_pos h]

theorem words_of_some {l : List α} (h : (nextWord sep l).1 ≠ []) :
    words sep l = (nextWord sep l).1 :: words sep (nextWord sep l).2 := by
  rw [words, dif_neg h]

@[simp] theorem words_nil : words sep ([] : List α) = [] := words_of_none sep rfl

theorem words_cons {a : α} (ha : sep a = true) (l : List α) : words sep (a :: l) = words sep l := by
  rw [words.eq_def sep (a :: l), nextWord_cons sep ha, ← words.eq_def sep l]

theorem words_append {w rest : List α} (hw : ∀ a ∈ w, sep a = false) (hne : w ≠ [])
    (hrest : ∀ a ∈ rest.head?, sep a = true) : words sep (w ++ rest) = w :: words sep rest := by
  have hnext := nextWord_append sep hw hne hrest
  rw [words_of_some sep (by rwa [hnext]), hnext]

/-- The words of a text of one word a line, with or without an end of the last line. -/
theorem words_intercalate {a : α} (ha : sep a = true) {ws : List (List α)}
    (hws : ∀ w ∈ ws, w ≠ [] ∧ ∀ b ∈ w, sep b = false) (final : Bool) :
    words sep ([a].intercalate ws ++ if final then [a] else []) = ws := by
  have hfinal : words sep (if final then [a] else []) = [] := by
    cases final with
    | false => exact words_nil sep
    | true => exact (words_cons sep ha []).trans (words_nil sep)
  have hhead : ∀ b ∈ (if final then [a] else []).head?, sep b = true := by
    cases final <;> simp [ha]
  induction ws with
  | nil => simpa using hfinal
  | cons w ws ih =>
    obtain ⟨⟨hne, hw⟩, hrest⟩ := List.forall_mem_cons.mp hws
    cases ws with
    | nil => rw [List.intercalate_singleton, words_append sep hw hne hhead, hfinal]
    | cons w' ws =>
      rw [List.intercalate_cons_cons, List.append_assoc, List.append_assoc, List.singleton_append,
        words_append sep hw hne (by simp [ha]), words_cons sep ha, ih hrest]

end

end SAeroRP.Library
