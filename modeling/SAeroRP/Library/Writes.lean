import Mathlib.Data.List.Basic

/-! Arrays that loops fill element by element. The indices that are written are recorded,
so that a result can say which elements a program writes and how often. An access outside
of an array has no result. -/

namespace SAeroRP.Library

/-- An array, and the indices written so far. -/
structure Writes (α : Type*) where
  elems : List α
  written : List ℕ
  deriving DecidableEq

namespace Writes

variable {α : Type*}

/-- An array of which nothing is written yet. -/
def ofList (old : List α) : Writes α := ⟨old, []⟩

def write (i : ℕ) (v : α) (w : Writes α) : Option (Writes α) :=
  if i < w.elems.length then some ⟨w.elems.set i v, w.written ++ [i]⟩ else none

/-- One iteration: `src[i - lo]` goes to index `i`. -/
def copyStep (lo : ℕ) (src : List α) (w : Writes α) (i : ℕ) : Option (Writes α) :=
  (src[i - lo]?).bind fun v => w.write i v

/-- The loop over the indices from `lo` up to, not including, `hi`. -/
def copyLoop (lo hi : ℕ) (src : List α) (w : Writes α) : Option (Writes α) :=
  (List.range' lo (hi - lo)).foldlM (copyStep lo src) w

/-- The array whose first elements have been written, in order and once each. -/
def filled (bs old : List α) : Writes α := ⟨bs ++ old.drop bs.length, List.range bs.length⟩

/-- All elements are written, and nothing is left of what the array held. -/
theorem filled_of_length {bs old : List α} (h : bs.length = old.length) :
    filled bs old = ⟨bs, List.range old.length⟩ := by
  rw [filled, h, List.drop_length, List.append_nil]

theorem write_filled {bs old : List α} (h : bs.length < old.length) (v : α) :
    (filled bs old).write bs.length v = some (filled (bs ++ [v]) old) := by
  have hfits : bs.length < (filled bs old).elems.length := by
    simp only [filled, List.length_append, List.length_drop]
    omega
  rw [write, if_pos hfits]
  simp only [filled, List.set_append_right _ _ (Nat.le_refl _), Nat.sub_self,
    List.drop_eq_getElem_cons h, List.set_cons_zero, List.append_assoc, List.singleton_append,
    List.length_append, List.length_singleton, List.range_succ]

/-- A loop that has copied some of its source copies what is left to copy. -/
theorem foldlM_filled (bs todo beyond : List α) {old : List α} (copied : List α)
    (h : bs.length + copied.length + todo.length ≤ old.length) :
    (List.range' (bs.length + copied.length) todo.length).foldlM
        (copyStep bs.length (copied ++ (todo ++ beyond))) (filled (bs ++ copied) old) =
      some (filled (bs ++ (copied ++ todo)) old) := by
  induction todo generalizing copied with
  | nil => rw [List.append_nil]; rfl
  | cons v todo ih =>
    rw [List.length_cons] at h
    have hlen : (bs ++ copied).length < old.length := by
      rw [List.length_append]
      omega
    have hstep : copyStep bs.length (copied ++ (v :: todo ++ beyond)) (filled (bs ++ copied) old)
        (bs.length + copied.length) = some (filled (bs ++ (copied ++ [v])) old) := by
      rw [copyStep, Nat.add_sub_cancel_left, List.getElem?_append_right (Nat.le_refl _),
        Nat.sub_self, List.cons_append, List.getElem?_cons_zero, Option.bind_some,
        ← List.length_append, write_filled hlen, List.append_assoc]
    have hrest := ih (copied ++ [v]) (by rw [List.length_append, List.length_singleton]; omega)
    rw [List.length_append, List.append_assoc, List.append_assoc, List.singleton_append,
      List.singleton_append] at hrest
    rw [List.length_cons, List.range'_succ, List.foldlM_cons, hstep]
    exact hrest

/-- A loop that starts where the array is filled up to, and reads the first part of its
source. -/
theorem copyLoop_append {bs src old : List α} {lo hi : ℕ} (beyond : List α)
    (hlo : bs.length = lo) (hhi : lo + src.length = hi) (h : hi ≤ old.length) :
    (filled bs old).copyLoop lo hi (src ++ beyond) = some (filled (bs ++ src) old) := by
  subst hlo hhi
  have hloop := foldlM_filled bs src beyond [] h
  rw [List.append_nil, List.nil_append, List.nil_append] at hloop
  rw [copyLoop, Nat.add_sub_cancel_left]
  exact hloop

theorem copyLoop_filled {bs src old : List α} {lo hi : ℕ} (hlo : bs.length = lo)
    (hhi : lo + src.length = hi) (h : hi ≤ old.length) :
    (filled bs old).copyLoop lo hi src = some (filled (bs ++ src) old) := by
  have hloop := copyLoop_append [] hlo hhi h
  rwa [List.append_nil] at hloop

/-- An array that is filled from the start of a source that is long enough. -/
theorem copyLoop_ofList {src old : List α} {n : ℕ} (hold : old.length = n) (h : n ≤ src.length) :
    (ofList old).copyLoop 0 n src = some ⟨src.take n, List.range n⟩ := by
  have htake : (src.take n).length = n := List.length_take_of_le h
  have hloop := @copyLoop_append α [] (src.take n) old 0 n (src.drop n) rfl
    ((Nat.zero_add _).trans htake) (Nat.le_of_eq hold.symm)
  rwa [List.take_append_drop, List.nil_append, filled_of_length (htake.trans hold.symm), hold]
    at hloop

/-- A loop with more indices than its source has elements reads past the end of it. -/
theorem copyLoop_eq_none {lo hi : ℕ} {src : List α} (h : src.length < hi - lo) (w : Writes α) :
    w.copyLoop lo hi src = none := by
  have hsplit : List.range' lo (hi - lo) = List.range' lo src.length ++
      (lo + src.length) :: List.range' (lo + src.length + 1) (hi - lo - src.length - 1) := by
    rw [← List.range'_succ, List.range'_append_1]
    congr 1
    omega
  rw [copyLoop, hsplit, List.foldlM_append]
  cases (List.range' lo src.length).foldlM (copyStep lo src) w with
  | none => rfl
  | some w =>
    rw [Option.bind_eq_bind, Option.bind_some, List.foldlM_cons, copyStep, Nat.add_sub_cancel_left,
      List.getElem?_eq_none (Nat.le_refl _)]
    rfl

end Writes

end SAeroRP.Library
