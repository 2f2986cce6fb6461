import Mathlib.Data.Vector.Basic
import SAeroRP.Tdma.SlotFile

/-! What is written down as a slot file and parsed comes back, as long as the count of all the
slots of the file fits in 32 bits. The parser counts them together and divides at the end. -/

namespace SAeroRP

open Library

namespace TdmaSlotAssignmentFileParser

/-! ### Node ids -/

theorem isSpace_of_isDigit {c : Char} (h : c.isDigit = true) : isSpace c = false := by
  obtain ⟨hle, -⟩ := Char.isDigit_iff_toNat.mp h
  have hnine : ¬ c.toNat ≤ 13 := fun hlt => absurd (hle.trans hlt) (by decide)
  have hblank : c ≠ ' ' := by
    rintro rfl
    exact absurd h (by decide)
  simp [isSpace, hblank, hnine]

theorem strtol_of_isDigit {s : List Char} (hne : s ≠ []) (h : ∀ c ∈ s, c.isDigit = true) :
    strtol s = min 9223372036854775807 (Nat.ofDigitChars 10 s 0 : ℤ) := by
  obtain ⟨c, s, rfl⟩ := List.exists_cons_of_ne_nil hne
  have hc := h c List.mem_cons_self
  have hdrop : (c :: s).dropWhile isSpace = c :: s :=
    List.dropWhile_cons_of_neg (by simp [isSpace_of_isDigit hc])
  have htake : (c :: s).takeWhile Char.isDigit = c :: s := List.takeWhile_eq_self_iff.mpr h
  rw [strtol, hdrop]
  split
  · rename_i heq
    rw [(List.cons.inj heq).1] at hc
    exact absurd hc (by decide)
  · rename_i heq
    rw [(List.cons.inj heq).1] at hc
    exact absurd hc (by decide)
  · dsimp only
    rw [htake]

/-- A number is read back from its digits. -/
theorem atoi_toDigits {n : ℕ} (h : n < 2147483648) :
    (atoi (Nat.toDigits 10 n)).toUInt32 = UInt32.ofNat n := by
  have hdigits : ∀ c ∈ Nat.toDigits 10 n, c.isDigit = true := fun c hc =>
    Nat.isDigit_of_mem_toDigits (by decide) (by decide) hc
  have hmin : min (9223372036854775807 : ℤ) n = n := by omega
  rw [atoi, strtol_of_isDigit Nat.toDigits_ne_nil hdigits, Nat.ofDigitChars_ten_toDigits, hmin]
  exact Int32.toUInt32_ofNat'

/-! ### Matrices -/

/-- A node id and its slots. -/
structure MatrixRow (numSlots : ℕ) where
  nodeId : ℕ
  slots : List.Vector Bool numSlots
  nodeId_lt : nodeId < 2147483648

/-- What a slot file is written from. -/
structure SlotMatrix where
  numSlots : ℕ
  rows : List (MatrixRow numSlots)
  slots_pos : 1 ≤ numSlots
  rows_ne : rows ≠ []

namespace MatrixRow
variable {m : ℕ}

def text (r : MatrixRow m) : List Char := Nat.toDigits 10 r.nodeId ++ ':' :: slotsText r.slots.toList

def values (r : MatrixRow m) : List UInt32 := UInt32.ofNat r.nodeId :: r.slots.toList.map slotValue

/-- The line of a row. -/
def toSlotRow (h : 1 ≤ m) (r : MatrixRow m) : SlotRow where
  nodeId := Nat.toDigits 10 r.nodeId
  slots := r.slots.toList
  nodeId_ne := Nat.toDigits_ne_nil
  colon_notMem := fun hmem =>
    absurd (Nat.isDigit_of_mem_toDigits (by decide) (by decide) hmem) (by decide)
  slots_ne := fun hnil => by
    have hlength := r.slots.toList_length
    rw [hnil] at hlength
    exact absurd (h.trans_eq hlength.symm) (by decide)

theorem text_toSlotRow (h : 1 ≤ m) (r : MatrixRow m) : (r.toSlotRow h).text = r.text := rfl

theorem values_toSlotRow (h : 1 ≤ m) (r : MatrixRow m) : (r.toSlotRow h).values = r.values := by
  rw [values, ← atoi_toDigits r.nodeId_lt]
  rfl

theorem isSpace_of_mem_text {r : MatrixRow m} {c : Char} (h : c ∈ r.text) : isSpace c = false := by
  obtain hid | rfl | hslots := by simpa only [text, List.mem_append, List.mem_cons] using h
  · exact isSpace_of_isDigit (Nat.isDigit_of_mem_toDigits (by decide) (by decide) hid)
  · rfl
  · exact isSpace_of_mem_slotsText hslots

end MatrixRow

namespace SlotMatrix

/-- The file of a matrix, with or without an end of the last line. -/
def text (M : SlotMatrix) (final : Bool) : List Char :=
  ['\n'].intercalate (M.rows.map MatrixRow.text) ++ if final then ['\n'] else []

/-- The parser gets the matrix back from its file. -/
def RoundTrips (M : SlotMatrix) (final : Bool) : Prop :=
  ∃ p, parseTdmaSlotInformation (some (M.text final)) = .ok p ∧
    p.getNodeCount.toNat = M.rows.length ∧ p.getTotalSlots.toNat = M.numSlots ∧
    p.getSlotArrays = M.rows.map MatrixRow.values

variable {M : SlotMatrix} {final : Bool}

/-- The lines of the file of a matrix. -/
def slotRows (M : SlotMatrix) : List SlotRow := M.rows.map (MatrixRow.toSlotRow M.slots_pos)

theorem rowWords_text (M : SlotMatrix) (final : Bool) :
    rowWords (some (M.text final)) = M.slotRows.map SlotRow.text := by
  have htexts : M.slotRows.map SlotRow.text = M.rows.map MatrixRow.text := by
    rw [slotRows, List.map_map]
    exact List.map_congr_left fun r _ => r.text_toSlotRow M.slots_pos
  rw [text, ← htexts]
  refine rowWords_intercalate (fun r hr c hc => ?_) final
  obtain ⟨r, -, rfl⟩ := List.mem_map.mp hr
  exact MatrixRow.isSpace_of_mem_text hc

theorem map_values_slotRows (M : SlotMatrix) :
    M.slotRows.map SlotRow.values = M.rows.map MatrixRow.values := by
  rw [slotRows, List.map_map]
  exact List.map_congr_left fun r _ => r.values_toSlotRow M.slots_pos

theorem length_slotRows (M : SlotMatrix) : M.slotRows.length = M.rows.length := List.length_map _

theorem slotTotal_slotRows (M : SlotMatrix) :
    slotTotal M.slotRows = M.rows.length * M.numSlots := by
  rw [← M.length_slotRows]
  refine slotTotal_of_length fun r hr => ?_
  obtain ⟨r, -, rfl⟩ := List.mem_map.mp hr
  exact r.slots.toList_length

theorem rowCount_slotRows (M : SlotMatrix) :
    rowCount M.slotRows = M.rows.length % 4294967296 := by
  rw [rowCount, length_slotRows]

theorem slotCount_slotRows (M : SlotMatrix) :
    slotCount M.slotRows = M.rows.length * M.numSlots % 4294967296 := by
  rw [slotCount, slotTotal_slotRows]

theorem RoundTrips.lt (h : M.RoundTrips final) : M.rows.length * M.numSlots < 4294967296 := by
  obtain ⟨p, hparse, hcount, htotal, -⟩ := h
  rw [parse_of_rows (M.rowWords_text final)] at hparse
  split_ifs at hparse with hzero hdvd
  obtain rfl := Except.ok.inj hparse
  have hdiv := (Nat.div_le_self _ (rowCount M.slotRows)).trans_lt (slotCount_lt M.slotRows)
  have hcount : rowCount M.slotRows = M.rows.length :=
    (UInt32.toNat_ofNat_of_lt' (rowCount_lt M.slotRows)).symm.trans hcount
  have htotal : slotCount M.slotRows / rowCount M.slotRows = M.numSlots :=
    (UInt32.toNat_ofNat_of_lt' hdiv).symm.trans htotal
  calc M.rows.length * M.numSlots
      = rowCount M.slotRows * (slotCount M.slotRows / rowCount M.slotRows) := by
        rw [htotal, hcount]
    _ ≤ slotCount M.slotRows := Nat.mul_div_le _ _
    _ < 4294967296 := slotCount_lt M.slotRows

theorem roundTrips_of_lt (h : M.rows.length * M.numSlots < 4294967296) : M.RoundTrips final := by
  have hpos : 0 < M.rows.length := List.length_pos_iff.mpr M.rows_ne
  have hrows : M.rows.length < 4294967296 :=
    (Nat.le_mul_of_pos_right _ M.slots_pos).trans_lt h
  have hslots : M.numSlots < 4294967296 := (Nat.le_mul_of_pos_left _ hpos).trans_lt h
  rw [RoundTrips, parse_of_rows (M.rowWords_text final), rowCount_slotRows, slotCount_slotRows,
    Nat.mod_eq_of_lt hrows, Nat.mod_eq_of_lt h, if_neg hpos.ne', if_pos (Nat.dvd_mul_right _ _),
    Nat.mul_div_cancel_left _ hpos]
  exact ⟨_, rfl, UInt32.toNat_ofNat_of_lt' hrows, UInt32.toNat_ofNat_of_lt' hslots,
    M.map_values_slotRows⟩

/-- A matrix comes back exactly when the count of its slots does not overflow. -/
theorem roundTrips_iff (M : SlotMatrix) (final : Bool) :
    M.RoundTrips final ↔ M.rows.length * M.numSlots < 4294967296 :=
  ⟨RoundTrips.lt, roundTrips_of_lt⟩

/-- Two nodes and 2^31 slots. -/
def wide : SlotMatrix where
  numSlots := 2147483648
  rows := [⟨0, List.Vector.replicate _ false, by decide⟩, ⟨1, List.Vector.replicate _ false, by decide⟩]
  slots_pos := by decide
  rows_ne := List.cons_ne_nil _ _

/-- All 2^32 slots are counted before the count is divided by the number of rows. -/
theorem roundTrips_wide :
    (∃ p, parseTdmaSlotInformation (some (wide.text false)) = .ok p ∧ p.getNodeCount = 2 ∧
      p.getTotalSlots = 0) ∧ ¬ ∀ (M : SlotMatrix) (final : Bool), M.RoundTrips final := by
  have hlength : wide.rows.length * wide.numSlots = 4294967296 := rfl
  refine ⟨?_, fun h => absurd (h wide false).lt (by rw [hlength]; decide)⟩
  have hrows : rowCount wide.slotRows = 2 := rowCount_slotRows wide
  have hslots : slotCount wide.slotRows = 0 := by
    rw [slotCount_slotRows, hlength]
  rw [parse_of_rows (wide.rowWords_text false), hrows, hslots]
  exact ⟨_, rfl, rfl, rfl⟩

end SlotMatrix

end TdmaSlotAssignmentFileParser

end SAeroRP
