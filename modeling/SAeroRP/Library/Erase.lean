import Mathlib

/-! Erasing the dead entries of an ordered map in two passes: a first pass over
the entries collects the keys to erase, a second erases them one by one. The
result is the map restricted to the entries that are not dead, whatever the
order of the collected keys and however often a key was collected. -/

namespace SAeroRP.Library

variable {α κ V : Type*}

/-- Removing adjacent repetitions loses no element. -/
theorem mem_destutter_ne [DecidableEq α] {a : α} {l : List α} :
    a ∈ l.destutter (· ≠ ·) ↔ a ∈ l := by
  have hcons : ∀ (b : α) (l : List α), a ∈ l.destutter' (· ≠ ·) b ↔ a = b ∨ a ∈ l := by
    intro b l
    induction l generalizing b with
    | nil => simp
    | cons c l ih =>
      rw [List.destutter'_cons]
      split_ifs with h
      · rw [List.mem_cons, ih, List.mem_cons]
      · rw [not_not] at h
        rw [ih, List.mem_cons, h]
        tauto
  cases l with
  | nil => simp
  | cons b l => rw [List.destutter_cons', hcons, List.mem_cons]

/-- An element put in front of a list without repetitions goes again if it is the first there. -/
theorem destutter_ne_cons [DecidableEq α] {a : α} {l : List α} (h : l.Nodup) :
    (a :: l).destutter (· ≠ ·) = if l.head? = some a then l else a :: l := by
  have hchain : l.IsChain (· ≠ ·) := List.Pairwise.isChain h
  cases l with
  | nil => rfl
  | cons b l =>
    rw [List.destutter_cons_cons, List.destutter'_of_isChain_cons _ _ hchain, List.head?_cons]
    by_cases hab : a = b
    · subst hab
      rw [if_neg (by simp), if_pos rfl, List.destutter'_of_isChain_cons _ _ hchain]
    · simp [hab, Ne.symm hab]

/-- The list stays without repetitions if the element is the first, or not there. -/
theorem nodup_destutter_ne_cons [DecidableEq α] {a : α} {l : List α} (h : l.Nodup) :
    ((a :: l).destutter (· ≠ ·)).Nodup ↔ l.head? = some a ∨ a ∉ l := by
  rw [destutter_ne_cons h]
  split_ifs with hhead
  · exact iff_of_true h (.inl hhead)
  · simp [hhead, h]

theorem sublist_foldl_filter_ne [DecidableEq α] (ks l : List α) :
    (ks.foldl (fun l k => l.filter (· ≠ k)) l).Sublist l := by
  induction ks generalizing l with
  | nil => exact List.Sublist.refl l
  | cons k ks ih => exact (ih _).trans List.filter_sublist

/-- Removing values from a list one after the other leaves the others. -/
theorem mem_foldl_filter_ne [DecidableEq α] (ks l : List α) (a : α) :
    a ∈ ks.foldl (fun l k => l.filter (· ≠ k)) l ↔ a ∈ l ∧ a ∉ ks := by
  induction ks generalizing l with
  | nil => simp
  | cons k ks ih =>
    rw [List.foldl_cons, ih, List.mem_filter, List.mem_cons]
    simp only [ne_eq, decide_eq_true_eq]
    tauto

/-- The keys of the entries that satisfy `dead`, the last one first. -/
def deadKeys (dead : κ → V → Bool) (l : List (κ × V)) : List κ :=
  l.foldl (fun ks e => if dead e.1 e.2 then e.1 :: ks else ks) []

theorem deadKeys_eq (dead : κ → V → Bool) (l : List (κ × V)) :
    deadKeys dead l = ((l.filter fun e => dead e.1 e.2).map Prod.fst).reverse := by
  have hacc : ∀ ks, l.foldl (fun ks e => if dead e.1 e.2 then e.1 :: ks else ks) ks =
      ((l.filter fun e => dead e.1 e.2).map Prod.fst).reverse ++ ks := by
    induction l with
    | nil => simp
    | cons e l ih =>
      intro ks
      rw [List.foldl_cons, ih, List.filter_cons]
      split_ifs <;> simp
  rw [deadKeys, hacc, List.append_nil]

theorem mem_deadKeys {dead : κ → V → Bool} {l : List (κ × V)} {k : κ} :
    k ∈ deadKeys dead l ↔ ∃ v, (k, v) ∈ l ∧ dead k v = true := by
  simp [deadKeys_eq]

variable [Ord κ] [Std.TransOrd κ]

def eraseDead [DecidableEq κ] (dead : κ → V → Bool) (m : Std.ExtTreeMap κ V) :
    Std.ExtTreeMap κ V :=
  ((deadKeys dead m.toList).destutter (· ≠ ·)).foldl (fun m k => m.erase k) m

variable [Std.LawfulEqOrd κ]

theorem getElem?_foldl_erase [DecidableEq κ] (ks : List κ) (m : Std.ExtTreeMap κ V) (k : κ) :
    (ks.foldl (fun m k => m.erase k) m)[k]? = if k ∈ ks then none else m[k]? := by
  induction ks generalizing m with
  | nil => simp
  | cons j ks ih =>
    rw [List.foldl_cons, ih, Std.ExtTreeMap.getElem?_erase]
    by_cases hj : j = k
    · simp [hj]
    · simp [hj, Ne.symm hj]

/-- Exactly the entries that are not dead are left. -/
theorem getElem?_eraseDead [DecidableEq κ] (dead : κ → V → Bool) (m : Std.ExtTreeMap κ V) (k : κ) :
    (eraseDead dead m)[k]? = m[k]?.filter fun v => !dead k v := by
  rw [eraseDead, getElem?_foldl_erase]
  have hmem : k ∈ (deadKeys dead m.toList).destutter (· ≠ ·) ↔
      ∃ v, m[k]? = some v ∧ dead k v = true := by
    simp only [mem_destutter_ne, mem_deadKeys, Std.ExtTreeMap.mem_toList_iff_getElem?_eq_some]
  cases hk : m[k]? with
  | none => simp
  | some v =>
    simp only [hmem, hk, Option.some.injEq, exists_eq_left', Option.filter]
    by_cases h : dead k v = true <;> simp [h]

end SAeroRP.Library
