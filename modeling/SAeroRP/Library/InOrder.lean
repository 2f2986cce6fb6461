import Mathlib.Data.List.Forall2

/-! Lists whose elements have partners in another list, each its own and in the same order. -/

namespace SAeroRP.Library

variable {α β : Type*} {R R' : α → β → Prop} {l l' : List α} {m m' : List β}

/-- A part of the list has its partners, and more partners do no harm. -/
theorem sublistForall₂_mono (h : List.SublistForall₂ R l m) (hR : ∀ a b, R a b → R' a b)
    (hl : l'.Sublist l) (hm : m.Sublist m') : List.SublistForall₂ R' l' m' := by
  have hpart : List.SublistForall₂ R' l' m := by
    clear hm
    induction h generalizing l' with
    | nil =>
      rw [List.sublist_nil.mp hl]
      exact .nil
    | cons hab _ ih =>
      cases hl with
      | cons _ hl => exact .cons_right (ih hl)
      | cons_cons _ hl => exact .cons (hR _ _ hab) (ih hl)
    | cons_right _ ih => exact .cons_right (ih hl)
  obtain ⟨k, hk, hkm⟩ := List.sublistForall₂_iff.mp hpart
  exact List.sublistForall₂_iff.mpr ⟨k, hk, hkm.trans hm⟩

theorem sublistForall₂_concat (h : List.SublistForall₂ R l m) {a : α} {b : β} (hab : R a b) :
    List.SublistForall₂ R (l ++ [a]) (m ++ [b]) := by
  obtain ⟨k, hk, hkm⟩ := List.sublistForall₂_iff.mp h
  refine List.sublistForall₂_iff.mpr ⟨k ++ [b], ?_, hkm.append (List.Sublist.refl [b])⟩
  exact List.rel_append hk (.cons hab .nil)

end SAeroRP.Library
