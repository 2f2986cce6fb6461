import Mathlib.Data.List.GetD
import SAeroRP.Tdma.SlotAllotment

/-! The table when slots are given to the helper, by a parser that has read a file or as the
arguments of a call. In both ways every row is written from its first column to its last. -/

namespace SAeroRP.TdmaHelper

open Library

/-- The table with the values of `value` in the first `k` rows. -/
def written (value : ℕ → ℕ → UInt32) (k : ℕ) (H : TdmaHelper) : TdmaHelper :=
  { H with slotAllotmentArray := fun a b =>
      if a < k ∧ b < H.numCols then value a b else H.slotAllotmentArray a b }

/-- The table with the first `j` columns of row `k` written too. -/
def writing (value : ℕ → ℕ → UInt32) (k j : ℕ) (H : TdmaHelper) : TdmaHelper :=
  { H with slotAllotmentArray := fun a b =>
      if a < k ∧ b < H.numCols ∨ a = k ∧ b < j then value a b else H.slotAllotmentArray a b }

variable {value : ℕ → ℕ → UInt32} {k j : ℕ} {H : TdmaHelper}

theorem written_zero (value : ℕ → ℕ → UInt32) (H : TdmaHelper) : H.written value 0 = H := by
  simp [written]

theorem writing_zero (value : ℕ → ℕ → UInt32) (k : ℕ) (H : TdmaHelper) :
    H.writing value k 0 = H.written value k := by
  simp [writing, written]

theorem writing_numCols (value : ℕ → ℕ → UInt32) (k : ℕ) (H : TdmaHelper) :
    H.writing value k H.numCols = H.written value (k + 1) := by
  unfold writing written
  congr 1
  funext a b
  refine if_congr ?_ rfl rfl
  omega

theorem setEntry_writing (hk : k < H.numRows) (hj : j < H.numCols) :
    (H.writing value k j).setEntry k j (value k j) = .ok (H.writing value k (j + 1)) := by
  rw [setEntry, if_pos ⟨hk, hj⟩]
  unfold writing
  congr 2
  funext a b
  by_cases hab : a = k ∧ b = j
  · obtain ⟨rfl, rfl⟩ := hab
    simp
  · rw [if_neg hab]
    refine if_congr ?_ rfl rfl
    omega

theorem setEntry_written (hk : k < H.numRows) (hcols : 0 < H.numCols) :
    (H.written value k).setEntry k 0 (value k 0) = .ok (H.writing value k 1) := by
  rw [← writing_zero]
  exact setEntry_writing hk hcols

/-! ### From a file -/

/-- The values the parser has read, as a table. -/
def valueOf (slotArrays : List (List UInt32)) (i j : ℕ) : UInt32 :=
  (slotArrays.getD i []).getD j 0

/-- There are rows enough, and each is as long as those of the table. -/
structure Covers {α : Type} (rows : List (List α)) (H : TdmaHelper) : Prop where
  cols : 0 < H.numCols
  enough : H.numRows ≤ rows.length
  length : ∀ row ∈ rows, H.numCols ≤ row.length

theorem Covers.slotAt {rows : List (List UInt32)} (h : Covers rows H) {i : ℕ} (hi : i < H.numRows)
    (hj : j < H.numCols) : slotAt rows i j = .ok (valueOf rows i j) := by
  have hrow : i < rows.length := hi.trans_le h.enough
  have hcol : j < (rows[i]).length := hj.trans_le (h.length _ (List.getElem_mem hrow))
  simp [TdmaHelper.slotAt, valueOf, hrow, hcol]

theorem setSlots_eq {slotArrays : List (List UInt32)} (h : Covers slotArrays H) :
    H.setSlots slotArrays = .ok (H.written (valueOf slotArrays) H.numRows) := by
  have hloop := foldlM_range (fun H' i => do
      let id ← slotAt slotArrays i 0
      let H' ← H'.setEntry i 0 id
      (List.range (H.numCols - 1)).foldlM (fun H' j => do
        let v ← slotAt slotArrays i (j + 1)
        H'.setEntry i (j + 1) v) H')
    (fun i => H.written (valueOf slotArrays) i) (n := H.numRows) fun i hi => by
      rw [h.slotAt hi h.cols, ok_bind, setEntry_written hi h.cols, ok_bind]
      have hrow := foldlM_range (fun H' j => slotAt slotArrays i (j + 1) >>= fun v =>
        H'.setEntry i (j + 1) v) (fun j => H.writing (valueOf slotArrays) i (j + 1))
        (n := H.numCols - 1) fun j hj => by
          have hcol : j + 1 < H.numCols := by omega
          rw [h.slotAt hi hcol, ok_bind, setEntry_writing hi hcol]
      rw [Nat.sub_add_cancel h.cols, writing_numCols] at hrow
      exact hrow
  rw [written_zero] at hloop
  exact hloop

/-! ### From arguments -/

/-- The arguments as a table, row by row. -/
def argumentOf (numCols : ℕ) (args : List Int32) (i j : ℕ) : UInt32 :=
  (args.getD (i * numCols + j) 0).toUInt32

theorem vaArg_drop {args : List Int32} {n : ℕ} (h : n < args.length) :
    vaArg (args.drop n) = .ok (args.getD n 0, args.drop (n + 1)) := by
  rw [List.drop_eq_getElem_cons h, vaArg, List.getD_eq_getElem?_getD, List.getElem?_eq_getElem h]
  rfl

/-- The place of an entry among the arguments. -/
theorem place_lt {rows cols i j n : ℕ} (hi : i < rows) (hj : j < cols) (h : rows * cols ≤ n) :
    i * cols + j < n := by
  have hrow : (i + 1) * cols ≤ rows * cols := Nat.mul_le_mul_right cols hi
  rw [Nat.succ_mul] at hrow
  omega

theorem setArg_writing {args : List Int32} (hk : k < H.numRows) (hj : j < H.numCols)
    (h : H.numRows * H.numCols ≤ args.length) :
    setArg k j (H.writing (argumentOf H.numCols args) k j, args.drop (k * H.numCols + j)) =
      .ok (H.writing (argumentOf H.numCols args) k (j + 1), args.drop (k * H.numCols + (j + 1))) := by
  have hentry : (H.writing (argumentOf H.numCols args) k j).setEntry k j _ = _ :=
    setEntry_writing hk hj
  rw [argumentOf] at hentry
  rw [setArg, vaArg_drop (place_lt hk hj h), ok_bind]
  simp only [hentry, ok_bind]
  rfl

theorem setSlotsArgs_eq {args : List Int32} (hcols : 0 < H.numCols)
    (h : H.numRows * H.numCols ≤ args.length) (numNodes : Int32) :
    H.setSlotsArgs numNodes args = .ok (H.written (argumentOf H.numCols args) H.numRows) := by
  have hloop := foldlM_range (fun s i => do
      let s ← setArg i 0 s
      (List.range (H.numCols - 1)).foldlM (fun s j => setArg i (j + 1) s) s)
    (fun i => (H.written (argumentOf H.numCols args) i, args.drop (i * H.numCols)))
    (n := H.numRows) fun i hi => by
      have hfirst := setArg_writing hi hcols h
      rw [writing_zero, Nat.add_zero] at hfirst
      have hrow := foldlM_range (fun s j => setArg i (j + 1) s)
        (fun j => (H.writing (argumentOf H.numCols args) i (j + 1),
          args.drop (i * H.numCols + (j + 1)))) (n := H.numCols - 1) fun j hj =>
            setArg_writing hi (Nat.add_lt_of_lt_sub hj) h
      rw [Nat.sub_add_cancel hcols, writing_numCols, ← Nat.succ_mul] at hrow
      rw [hfirst, ok_bind]
      exact hrow
  rw [written_zero, Nat.zero_mul, List.drop_zero] at hloop
  rw [setSlotsArgs, hloop]
  rfl

theorem length_setArg {i j : ℕ} {s s' : TdmaHelper × List Int32} (h : setArg i j s = .ok s') :
    s.2.length = s'.2.length + 1 := by
  obtain ⟨H, args⟩ := s
  obtain ⟨⟨v, rest⟩, harg, h⟩ := bind_eq_ok.mp h
  obtain ⟨H', -, h⟩ := bind_eq_ok.mp h
  cases h
  cases args with
  | nil => cases harg
  | cons w args =>
    cases harg
    rfl

/-- An argument is read for every entry of the table. -/
theorem le_length_of_setSlotsArgs {args : List Int32} {numNodes : Int32} {H' : TdmaHelper}
    (hcols : 0 < H.numCols) (h : H.setSlotsArgs numNodes args = .ok H') :
    H.numRows * H.numCols ≤ args.length := by
  obtain ⟨s, hfold, -⟩ := bind_eq_ok.mp h
  have hlength := measure_foldlM (fun s : TdmaHelper × List Int32 => s.2.length) H.numCols
    (fun s i s' hrow => by
      obtain ⟨t, ht, hrow⟩ := bind_eq_ok.mp hrow
      have hrest := measure_foldlM (fun s : TdmaHelper × List Int32 => s.2.length) 1
        (fun _ _ _ hstep => length_setArg hstep) hrow
      rw [List.length_range, Nat.mul_one] at hrest
      have hfirst := length_setArg ht
      omega) hfold
  rw [List.length_range] at hlength
  exact (Nat.le_add_left _ _).trans_eq hlength.symm

/-- In rows of the same length an entry is found by its place. -/
theorem getD_flatten {α : Type} {rows : List (List α)} {cols : ℕ}
    (h : ∀ row ∈ rows, row.length = cols) {i : ℕ} (hi : i < rows.length) (hj : j < cols) (d : α) :
    rows.flatten.getD (i * cols + j) d = (rows.getD i []).getD j d := by
  induction rows generalizing i with
  | nil => cases hi
  | cons row rows ih =>
    obtain ⟨hrow, hrows⟩ := List.forall_mem_cons.mp h
    rw [List.flatten_cons]
    cases i with
    | zero =>
      rw [Nat.zero_mul, Nat.zero_add, List.getD_append _ _ _ _ (hj.trans_eq hrow.symm)]
      rfl
    | succ i =>
      have hplace : (i + 1) * cols + j = row.length + (i * cols + j) := by
        rw [hrow, Nat.succ_mul]
        omega
      rw [hplace, List.getD_append_right _ _ _ _ (Nat.le_add_right _ _), Nat.add_sub_cancel_left,
        ih hrows (Nat.lt_of_succ_lt_succ hi)]
      rfl

end SAeroRP.TdmaHelper
