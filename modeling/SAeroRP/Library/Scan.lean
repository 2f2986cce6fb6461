import Mathlib.Data.List.Basic
import Mathlib.Tactic.Push

/-! Keeping the best entry seen while scanning a list. An entry replaces the
current best when its value beats the best value. For a transitive relation the
result is an entry of the list that beats the starting entry, if anything does.
For a strict weak order nothing beats the result, and it is the first of the
entries that tie with it. -/

namespace SAeroRP.Library

variable {κ β : Type*}

/-- Scan `l` with `best` as the entry to beat. -/
def scan (beats : β → β → Prop) [DecidableRel beats] (best : κ × β) (l : List (κ × β)) : κ × β :=
  l.foldl (fun best e => if beats e.2 best.2 then e else best) best

section General
variable (beats : β → β → Prop) [DecidableRel beats]

theorem scan_cons (best e : κ × β) (l : List (κ × β)) :
    scan beats best (e :: l) = scan beats (if beats e.2 best.2 then e else best) l := rfl

/-- An entry nothing beats is kept. -/
theorem scan_of_not_beats {best : κ × β} {l : List (κ × β)}
    (h : ∀ e ∈ l, ¬ beats e.2 best.2) : scan beats best l = best := by
  induction l with
  | nil => rfl
  | cons e l ih =>
    rw [scan_cons, if_neg (h e List.mem_cons_self)]
    exact ih fun e' he' => h e' (List.mem_cons_of_mem _ he')

/-- An entry that is beaten is replaced by one that beats it. -/
theorem scan_of_beats (htrans : ∀ a b c, beats a b → beats b c → beats a c) {best : κ × β}
    {l : List (κ × β)} (h : ∃ e ∈ l, beats e.2 best.2) :
    scan beats best l ∈ l ∧ beats (scan beats best l).2 best.2 := by
  induction l generalizing best with
  | nil =>
    obtain ⟨e, he, -⟩ := h
    cases he
  | cons a l ih =>
    rw [scan_cons]
    by_cases ha : beats a.2 best.2
    · rw [if_pos ha]
      by_cases hl : ∃ e ∈ l, beats e.2 a.2
      · obtain ⟨hin, hbeat⟩ := ih hl
        exact ⟨List.mem_cons_of_mem _ hin, htrans _ _ _ hbeat ha⟩
      · push Not at hl
        rw [scan_of_not_beats beats hl]
        exact ⟨List.mem_cons_self, ha⟩
    · rw [if_neg ha]
      obtain ⟨e, he, hbeat⟩ := h
      rcases List.mem_cons.mp he with rfl | he
      · exact absurd hbeat ha
      · obtain ⟨hin, hbeat⟩ := ih ⟨e, he, hbeat⟩
        exact ⟨List.mem_cons_of_mem _ hin, hbeat⟩

end General

/-! ### Strict weak orders -/

section StrictWeak
variable (beats : β → β → Prop) [DecidableRel beats]

/-- No entry, and not the starting one, beats the result. -/
theorem not_beats_scan (htrans : ∀ a b c, beats a b → beats b c → beats a c)
    (hirrefl : ∀ a, ¬ beats a a) (hcotrans : ∀ a b c, beats a c → beats a b ∨ beats b c)
    (best : κ × β) (l : List (κ × β)) :
    ¬ beats best.2 (scan beats best l).2 ∧ ∀ e ∈ l, ¬ beats e.2 (scan beats best l).2 := by
  induction l generalizing best with
  | nil => exact ⟨hirrefl _, nofun⟩
  | cons e l ih =>
    obtain ⟨hstart, hrest⟩ := ih (if beats e.2 best.2 then e else best)
    rw [scan_cons]
    have hboth : ¬ beats best.2 (scan beats (if beats e.2 best.2 then e else best) l).2 ∧
        ¬ beats e.2 (scan beats (if beats e.2 best.2 then e else best) l).2 := by
      by_cases h : beats e.2 best.2
      · rw [if_pos h] at hstart ⊢
        exact ⟨fun hbest => hstart (htrans _ _ _ h hbest), hstart⟩
      · rw [if_neg h] at hstart ⊢
        exact ⟨hstart, fun he => (hcotrans _ _ _ he).elim h hstart⟩
    refine ⟨hboth.1, fun e' he' => ?_⟩
    rcases List.mem_cons.mp he' with rfl | he'
    · exact hboth.2
    · exact hrest e' he'

/-- Among entries listed in key order, ties go to the entry listed first. -/
theorem scan_key_le (htrans : ∀ a b c, beats a b → beats b c → beats a c)
    (hcotrans : ∀ a b c, beats a c → beats a b ∨ beats b c) {lt : κ → κ → Prop} (best : κ × β)
    {l : List (κ × β)} (hl : l.Pairwise fun a b => lt a.1 b.1) (e : κ × β) (he : e ∈ l)
    (htie : ¬ beats (scan beats best l).2 e.2) (hbeat : beats (scan beats best l).2 best.2) :
    (scan beats best l).1 = e.1 ∨ lt (scan beats best l).1 e.1 := by
  induction l generalizing best with
  | nil => cases he
  | cons a l ih =>
    rw [List.pairwise_cons] at hl
    rw [scan_cons] at htie hbeat ⊢
    by_cases ha : beats a.2 best.2
    · rw [if_pos ha] at htie hbeat ⊢
      by_cases hl' : ∃ e' ∈ l, beats e'.2 a.2
      -- a later entry beats the head, so the head is no tie
      · obtain ⟨-, hscan⟩ := scan_of_beats beats htrans hl'
        rcases List.mem_cons.mp he with rfl | he
        · exact absurd hscan htie
        · exact ih a hl.2 he htie hscan
      · push Not at hl'
        rw [scan_of_not_beats beats hl']
        rcases List.mem_cons.mp he with rfl | he
        · exact .inl rfl
        · exact .inr (hl.1 e he)
    · rw [if_neg ha] at htie hbeat ⊢
      rcases List.mem_cons.mp he with rfl | he
      · exact absurd ((hcotrans _ _ _ hbeat).resolve_left htie) ha
      · exact ih best hl.2 he htie hbeat

end StrictWeak

end SAeroRP.Library
