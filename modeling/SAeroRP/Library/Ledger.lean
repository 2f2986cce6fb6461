import Mathlib.Data.List.Perm.Basic

/-! The books of a store that hands things out in the order it took them in. What was
accepted is written down, and so is what has left, with the way it went. The books hold
of a store when every accepted thing is either in the store or has left, counting
repeated things as often as they were accepted, and the store keeps the order of
acceptance. -/

namespace SAeroRP.Library

/-- The history of a store of things of type `α` that leave in the ways `κ`. -/
structure Ledger (α κ : Type*) where
  accepted : List α := []
  left : List (κ × α) := []

namespace Ledger

variable {α κ : Type*}

def accept (a : α) (l : Ledger α κ) : Ledger α κ := { l with accepted := l.accepted ++ [a] }

def leave (k : κ) (as : List α) (l : Ledger α κ) : Ledger α κ :=
  { l with left := l.left ++ as.map (k, ·) }

/-- What has left in one way, in the order in which it left. -/
def leftBy [DecidableEq κ] (l : Ledger α κ) (k : κ) : List α :=
  (l.left.filter fun x => x.1 = k).map Prod.snd

structure Holds (l : Ledger α κ) (store : List α) : Prop where
  accounts : l.accepted.Perm (store ++ l.left.map Prod.snd)
  order : store.Sublist l.accepted

variable {l : Ledger α κ} {store kept gone : List α}

theorem holds_nil : Holds ({} : Ledger α κ) [] := ⟨.nil, .slnil⟩

theorem Holds.accept (h : l.Holds store) (a : α) : (l.accept a).Holds (store ++ [a]) := by
  constructor
  · have hperm := h.accounts.append_right [a]
    simp only [Ledger.accept, List.append_assoc] at hperm ⊢
    exact hperm.trans (List.perm_append_comm.append_left store)
  · exact h.order.append (List.Sublist.refl [a])

/-- What leaves a store is taken out of it, and the rest stays in order. -/
theorem Holds.leave (h : l.Holds store) (k : κ) (hperm : store.Perm (gone ++ kept))
    (hkept : kept.Sublist store) : (l.leave k gone).Holds kept := by
  constructor
  · have hleft : (l.leave k gone).left.map Prod.snd = l.left.map Prod.snd ++ gone := by
      simp [Ledger.leave, Function.comp_def]
    have hstore : store.Perm (kept ++ gone) := hperm.trans List.perm_append_comm
    rw [hleft]
    refine h.accounts.trans ((hstore.append_right _).trans ?_)
    rw [List.append_assoc]
    exact List.perm_append_comm.append_left kept
  · exact hkept.trans h.order

/-- Splitting a store by a test. -/
theorem Holds.leave_filter (h : l.Holds store) (k : κ) (p : α → Bool) :
    (l.leave k (store.filter p)).Holds (store.filter fun a => !p a) :=
  h.leave k (List.filter_append_perm p store).symm List.filter_sublist

section
variable [DecidableEq κ]

theorem leftBy_leave (l : Ledger α κ) (k k' : κ) (as : List α) :
    (l.leave k as).leftBy k' = l.leftBy k' ++ if k = k' then as else [] := by
  by_cases h : k = k' <;> simp [leftBy, leave, List.filter_map, Function.comp_def, h]

end

end Ledger

end SAeroRP.Library
