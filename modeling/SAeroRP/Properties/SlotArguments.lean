import SAeroRP.Tdma.GivenSlots
import SAeroRP.Tdma.Sample

/-! The two ways of giving slots. As arguments of a call they are what a file with the same rows
would give, and the call reads exactly as many of them as there are entries in the table; the
number of nodes in front of them makes no difference. -/

namespace SAeroRP.TdmaHelper

variable {H : TdmaHelper}

/-- Tables with the same values in all cells. -/
theorem written_congr {value value' : ℕ → ℕ → UInt32} {k : ℕ}
    (h : ∀ i < k, ∀ j < H.numCols, value i j = value' i j) :
    H.written value k = H.written value' k := by
  unfold written
  congr 1
  funext a b
  by_cases hab : a < k ∧ b < H.numCols
  · rw [if_pos hab, if_pos hab, h a hab.1 b hab.2]
  · rw [if_neg hab, if_neg hab]

/-- The arguments of full rows are the values of the rows. -/
theorem argumentOf_flatten {rows : List (List Int32)} {cols : ℕ}
    (h : ∀ row ∈ rows, row.length = cols) {i j : ℕ} (hi : i < rows.length) (hj : j < cols) :
    argumentOf cols rows.flatten i j = valueOf (rows.map (·.map Int32.toUInt32)) i j := by
  have hcol : j < (rows[i]).length := hj.trans_eq (h _ (List.getElem_mem hi)).symm
  rw [argumentOf, getD_flatten h hi hj, valueOf]
  simp [List.getD_eq_getElem?_getD, hi, hcol]

/-- A call with the entries of the table as arguments succeeds exactly if there are as many as
entries, and then gives the table that rows with these entries give when they come from a
file. -/
theorem setSlotsArgs_agrees (H : TdmaHelper) (hcols : 0 < H.numCols) (numNodes : Int32) :
    (∀ args, (∃ H', H.setSlotsArgs numNodes args = .ok H') ↔
      H.numRows * H.numCols ≤ args.length) ∧
    ∀ rows : List (List Int32), rows.length = H.numRows →
      (∀ row ∈ rows, row.length = H.numCols) → ∀ more,
        H.setSlotsArgs numNodes (rows.flatten ++ more) =
          H.setSlots (rows.map (·.map Int32.toUInt32)) := by
  refine ⟨fun args => ⟨fun ⟨H', h⟩ => le_length_of_setSlotsArgs hcols h, fun h =>
    ⟨_, setSlotsArgs_eq hcols h numNodes⟩⟩, fun rows hrows hlength more => ?_⟩
  have hcovers : Covers (rows.map (·.map Int32.toUInt32)) H := by
    refine ⟨hcols, by simp [hrows], fun row hrow => ?_⟩
    obtain ⟨r, hr, rfl⟩ := List.mem_map.mp hrow
    rw [List.length_map, hlength r hr]
  have hflat : rows.flatten.length = H.numRows * H.numCols := by
    rw [List.length_flatten, ← hrows, List.map_congr_left hlength, List.map_const']
    simp
  rw [setSlots_eq hcovers, setSlotsArgs_eq hcols (by simp [hflat])]
  refine congrArg Except.ok (written_congr fun i hi j hj => ?_)
  rw [← argumentOf_flatten hlength (hrows ▸ hi) hj, argumentOf, argumentOf,
    List.getD_append _ _ _ _ (place_lt hi hj hflat.ge)]

/-- The call in the helper's documentation. -/
theorem setSlotsArgs_agrees_documented :
    Sample.slotTable.setSlotsArgs 4
        [0, 1, 1, 0, 0, 0, 1, 0, 0, 1, 0, 0, 2, 0, 0, 0, 1, 0, 3, 0, 0, 0, 0, 1] =
      Sample.slotTable.setSlots Sample.slotRows :=
  (setSlotsArgs_agrees Sample.slotTable (by decide) 4).2
    [[0, 1, 1, 0, 0, 0], [1, 0, 0, 1, 0, 0], [2, 0, 0, 0, 1, 0], [3, 0, 0, 0, 0, 1]] rfl
    (by decide) []

end SAeroRP.TdmaHelper
