import SAeroRP.Library.Fold
import SAeroRP.Tdma.SlotAllotment
import SAeroRP.Tdma.SlotFile

/-! Which slot files the helper reads without harm. The parser compares the rows of a file by
the sum of their lengths alone, so it accepts rows of different lengths; and it divides by the
number of rows also when there is none. -/

namespace SAeroRP

open Library TdmaSlotAssignmentFileParser

namespace TdmaHelper

variable {slotArrays : List (List UInt32)} {H : TdmaHelper}

/-! ### Reads and writes -/

theorem slotAt_ne_error {i j : ℕ} (hi : i < slotArrays.length)
    (hrows : ∀ row ∈ slotArrays, j < row.length) : slotAt slotArrays i j ≠ .error .outOfRange := by
  have hj : j < slotArrays[i].length := hrows _ (List.getElem_mem hi)
  simp [slotAt, hi, hj]

theorem setEntry_ne_error (i j : ℕ) (v : UInt32) (H : TdmaHelper) :
    H.setEntry i j v ≠ .error .outOfRange := by
  unfold setEntry
  split_ifs <;> simp

theorem allocate2D_ne_error (H : TdmaHelper) : H.allocate2D ≠ .error .outOfRange :=
  foldlM_ne_error (fun _ _ _ => bind_ne_error (setEntry_ne_error _ _ _ _) fun _ _ =>
    foldlM_ne_error (fun _ _ _ => setEntry_ne_error _ _ _ _) _) _

theorem dims_of_setEntry {H' : TdmaHelper} {i j : ℕ} {v : UInt32} (h : H.setEntry i j v = .ok H') :
    H'.numRows = H.numRows ∧ H'.numCols = H.numCols := by
  unfold setEntry at h
  split_ifs at h
  cases h
  exact ⟨rfl, rfl⟩

theorem dims_of_allocate2D {H' : TdmaHelper} (h : H.allocate2D = .ok H') :
    H'.numRows = H.numRows ∧ H'.numCols = H.numCols := by
  have hentry : ∀ (i j : ℕ) (v : UInt32) (s s' : TdmaHelper),
      s.numRows = H.numRows ∧ s.numCols = H.numCols → s.setEntry i j v = .ok s' →
        s'.numRows = H.numRows ∧ s'.numCols = H.numCols := fun i j v s s' hs hs' => by
    obtain ⟨hrows, hcols⟩ := dims_of_setEntry hs'
    exact ⟨hrows.trans hs.1, hcols.trans hs.2⟩
  refine of_foldlM (fun s : TdmaHelper => s.numRows = H.numRows ∧ s.numCols = H.numCols)
    (fun s i s' hs hrow => ?_) ⟨rfl, rfl⟩ h
  obtain ⟨t, ht, hrow⟩ := bind_eq_ok.mp hrow
  exact of_foldlM _ (fun s j s' => hentry i (j + 1) 0 s s') (hentry _ _ _ s t hs ht) hrow

/-- Rows that are long enough are not read outside. -/
theorem setSlots_ne_error (hrows : H.numRows ≤ slotArrays.length)
    (hlength : ∀ row ∈ slotArrays, 0 < row.length ∧ H.numCols ≤ row.length) :
    H.setSlots slotArrays ≠ .error .outOfRange := by
  refine foldlM_ne_error (fun H' i hi => ?_) H
  have hi : i < slotArrays.length := (List.mem_range.mp hi).trans_le hrows
  refine bind_ne_error (slotAt_ne_error hi fun row hrow => (hlength row hrow).1) fun id _ =>
    bind_ne_error (setEntry_ne_error _ _ _ _) fun H' _ => foldlM_ne_error (fun H' j hj => ?_) H'
  have hj : j + 1 < H.numCols := Nat.add_lt_of_lt_sub (List.mem_range.mp hj)
  exact bind_ne_error (slotAt_ne_error hi fun row hrow => hj.trans_le (hlength row hrow).2)
    fun v _ => setEntry_ne_error _ _ _ _

end TdmaHelper

namespace TdmaSlotAssignmentFileParser

/-- A file is parsed without a division by zero, its rows have the lengths the parser gives,
and the helper does not read outside of them. -/
structure Safe (file : Option (List Char)) : Prop where
  divides : parseTdmaSlotInformation file ≠ .error .divisionByZero
  rectangular : ∀ p, parseTdmaSlotInformation file = .ok p →
    ∀ row ∈ p.getSlotArrays, row.length = p.getTotalSlots.toNat + 1
  inside : ∀ memory, TdmaHelper.createFromFile memory file ≠ .error .outOfRange

/-- Rows of the same length, whose slots are counted without overflow. -/
def Rectangular (rows : List SlotRow) : Prop :=
  ∃ m, (∀ r ∈ rows, r.slots.length = m) ∧ m * rowCount rows < 4294967296

variable {file : Option (List Char)} {rows : List SlotRow}

/-- The count of the slots of rows of the same length. -/
theorem slotCount_of_length {m : ℕ} (h : ∀ r ∈ rows, r.slots.length = m)
    (hlt : m * rowCount rows < 4294967296) : slotCount rows = m * rowCount rows := by
  rw [slotCount, slotTotal_of_length h, ← Nat.mod_mul_mod, ← rowCount, Nat.mul_comm,
    Nat.mod_eq_of_lt hlt]

theorem rectangular_iff (hne : rowCount rows ≠ 0) (hdvd : rowCount rows ∣ slotCount rows) :
    Rectangular rows ↔ ∀ r ∈ rows, r.slots.length = slotCount rows / rowCount rows := by
  constructor
  · rintro ⟨m, hlength, hlt⟩
    rw [slotCount_of_length hlength hlt, Nat.mul_div_cancel _ (Nat.pos_of_ne_zero hne)]
    exact hlength
  · intro hlength
    refine ⟨_, hlength, ?_⟩
    rw [Nat.div_mul_cancel hdvd]
    exact slotCount_lt rows

/-- What the parser gives for rows it accepts. -/
theorem getTotalSlots_of_rows (rows : List SlotRow) :
    (UInt32.ofNat (slotCount rows / rowCount rows)).toNat = slotCount rows / rowCount rows :=
  UInt32.toNat_ofNat_of_lt' ((Nat.div_le_self _ _).trans_lt (slotCount_lt rows))

theorem parse_ne_error (file : Option (List Char)) :
    parseTdmaSlotInformation file ≠ .error .outOfRange := fun h => by
  obtain h | ⟨h, -⟩ := parse_error h <;> cases h

/-- The rows the parser has counted are there. -/
theorem getNodeCount_le {p : TdmaSlotAssignmentFileParser}
    (h : parseTdmaSlotInformation file = .ok p) :
    p.getNodeCount.toNat ≤ p.getSlotArrays.length := by
  obtain ⟨rows, -, -, -, rfl⟩ := of_parse h
  show (UInt32.ofNat (rowCount rows)).toNat ≤ (rows.map SlotRow.values).length
  rw [UInt32.toNat_ofNat_of_lt' (rowCount_lt rows), List.length_map]
  exact Nat.mod_le _ _

/-- A file whose rows have the lengths the parser gives is not read outside of them. -/
theorem createFromFile_ne_error (memory : ℕ → ℕ → UInt32)
    (hrect : ∀ p, parseTdmaSlotInformation file = .ok p →
      ∀ row ∈ p.getSlotArrays, row.length = p.getTotalSlots.toNat + 1) :
    TdmaHelper.createFromFile memory file ≠ .error .outOfRange := by
  refine bind_ne_error (parse_ne_error file) fun p hp => ?_
  refine bind_ne_error (TdmaHelper.allocate2D_ne_error _) fun H hH => ?_
  obtain ⟨hrows, hcols⟩ := TdmaHelper.dims_of_allocate2D hH
  refine TdmaHelper.setSlots_ne_error (hrows.trans_le (getNodeCount_le hp)) fun row hrow => ?_
  rw [hrect p hp row hrow, hcols, UInt32.toNat_add]
  exact ⟨Nat.succ_pos _, Nat.mod_le _ _⟩

/-- The slot files that do no harm. -/
theorem safe_iff_rectangular (file : Option (List Char)) : Safe file ↔
    ∀ rows : List SlotRow, rowWords file = rows.map SlotRow.text →
      rowCount rows ≠ 0 ∧ (rowCount rows ∣ slotCount rows → Rectangular rows) := by
  constructor
  · intro hsafe rows hrows
    have hne : rowCount rows ≠ 0 := fun hzero =>
      hsafe.divides (by rw [parse_of_rows hrows, if_pos hzero])
    refine ⟨hne, fun hdvd => (rectangular_iff hne hdvd).mpr fun r hr => ?_⟩
    have hlength := hsafe.rectangular _ (by rw [parse_of_rows hrows, if_neg hne, if_pos hdvd])
      r.values (List.mem_map_of_mem hr)
    rw [r.length_values] at hlength
    exact (Nat.succ_inj.mp hlength).trans (getTotalSlots_of_rows rows)
  · intro h
    have hrect : ∀ p, parseTdmaSlotInformation file = .ok p →
        ∀ row ∈ p.getSlotArrays, row.length = p.getTotalSlots.toNat + 1 := by
      intro p hp row hrow
      obtain ⟨rows, hrows, hne, hdvd, rfl⟩ := of_parse hp
      obtain ⟨r, hr, rfl⟩ := List.mem_map.mp hrow
      rw [r.length_values, (rectangular_iff hne hdvd).mp ((h rows hrows).2 hdvd) r hr]
      exact congrArg Nat.succ (getTotalSlots_of_rows rows).symm
    refine ⟨fun hdiv => ?_, hrect, fun memory => createFromFile_ne_error memory hrect⟩
    obtain hf | ⟨-, rows, hrows, hzero⟩ := parse_error hdiv
    · cases hf
    · exact (h rows hrows).1 hzero

/-- A line with one slot and a line with three, which make two slots on average. -/
def ragged : List Char := ['0', ':', '1', '\n', '1', ':', '0', ',', '0', ',', '1']

def raggedRows : List SlotRow :=
  [⟨['0'], [true], by decide, by decide, by decide⟩,
    ⟨['1'], [false, false, true], by decide, by decide, by decide⟩]

/-- A file that is not there divides by zero, and of one with rows of one and three slots the
second slot of the first is read. -/
theorem not_safe_ragged : parseTdmaSlotInformation none = .error .divisionByZero ∧
    TdmaHelper.createFromFile (fun _ _ => 0) (some ragged) = .error .outOfRange ∧
    ¬ ∀ file, Safe file := by
  have hnone : parseTdmaSlotInformation none = .error .divisionByZero :=
    parse_of_rows (show rowWords none = ([] : List SlotRow).map SlotRow.text from rfl)
  have hall : (raggedRows.all fun r => r.text.all fun c => !isSpace c) = true := rfl
  have hspaces : ∀ r ∈ raggedRows, ∀ c ∈ r.text, isSpace c = false := fun r hr c hc => by
    simpa using List.all_eq_true.mp (List.all_eq_true.mp hall r hr) c hc
  have hparse : parseTdmaSlotInformation (some ragged) = .ok ⟨2, 2, [[0, 1], [1, 0, 0, 1]]⟩ :=
    parse_of_rows (rowWords_intercalate hspaces false)
  refine ⟨hnone, ?_, fun h => (h none).divides hnone⟩
  rw [TdmaHelper.createFromFile, hparse]
  rfl

end TdmaSlotAssignmentFileParser

end SAeroRP
