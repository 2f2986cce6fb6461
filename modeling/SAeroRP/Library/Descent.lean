import Mathlib.Data.Finset.Card
import Mathlib.Data.List.Chain

/-! Paths that descend. Where every step of a path stays in a finite set and goes
down in a transitive and irreflexive relation, the path visits nothing twice and is
no longer than the set is large, and from every start there is a path that ends. -/

namespace SAeroRP.Library

variable {α : Type*} {Next R : α → α → Prop} {nodes : Finset α}

section Descent
variable (htrans : ∀ a b c, R a b → R b c → R a c)
  (hnext : ∀ a b, a ∈ nodes → Next a b → b ∈ nodes ∧ R a b)
include htrans hnext

/-- Everything later on the path is in the set and below its start. -/
theorem descends_of_mem {a b : α} {l : List α} (ha : a ∈ nodes) (h : (a :: l).IsChain Next)
    (hb : b ∈ l) : b ∈ nodes ∧ R a b := by
  induction l generalizing a with
  | nil => cases hb
  | cons c l ih =>
    obtain ⟨hac, hrest⟩ := List.isChain_cons_cons.mp h
    obtain ⟨hc, hR⟩ := hnext _ _ ha hac
    rcases List.mem_cons.mp hb with rfl | hb
    · exact ⟨hc, hR⟩
    · obtain ⟨hin, hR'⟩ := ih hc hrest hb
      exact ⟨hin, htrans _ _ _ hR hR'⟩

variable (hirrefl : ∀ a, ¬ R a a)
include hirrefl

theorem nodup_of_descends {a : α} {l : List α} (ha : a ∈ nodes) (h : (a :: l).IsChain Next) :
    (a :: l).Nodup := by
  induction l generalizing a with
  | nil => exact List.nodup_singleton a
  | cons b l ih =>
    obtain ⟨hab, hrest⟩ := List.isChain_cons_cons.mp h
    refine List.nodup_cons.mpr ⟨fun hmem => ?_, ih (hnext _ _ ha hab).1 hrest⟩
    exact hirrefl a (descends_of_mem htrans hnext ha h hmem).2

theorem length_le_card_of_descends {a : α} {l : List α} (ha : a ∈ nodes)
    (h : (a :: l).IsChain Next) : (a :: l).length ≤ nodes.card := by
  classical
  rw [← List.toFinset_card_of_nodup (nodup_of_descends htrans hnext hirrefl ha h)]
  refine Finset.card_le_card fun b hb => ?_
  rcases List.mem_cons.mp (List.mem_toFinset.mp hb) with rfl | hb
  · exact ha
  · exact (descends_of_mem htrans hnext ha h hb).1

/-- A path can be continued until nothing comes next. -/
theorem exists_complete_of_descends {a : α} (ha : a ∈ nodes) :
    ∃ l, (a :: l).IsChain Next ∧ ∀ b, ¬ Next ((a :: l).getLast (List.cons_ne_nil a l)) b := by
  by_contra hnone
  push Not at hnone
  -- otherwise there are paths of every length
  have hlong : ∀ k, ∃ l : List α, l.length = k ∧ (a :: l).IsChain Next := by
    intro k
    induction k with
    | zero => exact ⟨[], rfl, List.isChain_singleton a⟩
    | succ k ih =>
      obtain ⟨l, hl, h⟩ := ih
      obtain ⟨b, hb⟩ := hnone l h
      refine ⟨l ++ [b], by simp [hl], ?_⟩
      rw [← List.cons_append, List.isChain_append]
      refine ⟨h, List.isChain_singleton b, fun x hx y hy => ?_⟩
      rw [List.getLast?_eq_some_getLast (List.cons_ne_nil a l)] at hx
      cases hx
      cases hy
      exact hb
  obtain ⟨l, hl, h⟩ := hlong nodes.card
  have := length_le_card_of_descends htrans hnext hirrefl ha h
  rw [List.length_cons, hl] at this
  omega

end Descent

end SAeroRP.Library
