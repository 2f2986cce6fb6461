import Mathlib.Tactic.SplitIfs
import SAeroRP.Tdma.SlotFileParser

/-! The lines the parser of slot files accepts. They are exactly those of a node id, a colon
and slots separated by commas, and each gives its id and its slots as numbers. -/

namespace SAeroRP

open Library

namespace TdmaSlotAssignmentFileParser

theorem ofNat_length_cons {α : Type} (a : α) (l : List α) :
    UInt32.ofNat (a :: l).length = 1 + UInt32.ofNat l.length := by
  rw [List.length_cons, UInt32.ofNat_add, UInt32.add_comm]
  rfl

/-! ### Slots -/

def slotChar (slot : Bool) : Char := if slot then '1' else '0'

def slotValue (slot : Bool) : UInt32 := if slot then 1 else 0

def slotsText (slots : List Bool) : List Char := (slots.map slotChar).intersperse ','

@[simp] theorem slotsText_singleton (slot : Bool) : slotsText [slot] = [slotChar slot] := rfl

theorem slotsText_cons {slots : List Bool} (h : slots ≠ []) (slot : Bool) :
    slotsText (slot :: slots) = slotChar slot :: ',' :: slotsText slots := by
  cases slots with
  | nil => exact absurd rfl h
  | cons => rfl

theorem slotsText_ne_nil {slots : List Bool} (h : slots ≠ []) : slotsText slots ≠ [] := by
  obtain ⟨slot, slots, rfl⟩ := List.exists_cons_of_ne_nil h
  by_cases hslots : slots = []
  · rw [hslots]
    exact List.cons_ne_nil _ _
  · rw [slotsText_cons hslots]
    exact List.cons_ne_nil _ _

theorem isSlot_iff {field : List Char} : IsSlot field ↔ ∃ slot, field = [slotChar slot] := by
  rw [IsSlot, Bool.exists_bool]
  rfl

theorem slotChar_ne_comma (slot : Bool) : slotChar slot ≠ ',' := by cases slot <;> decide

theorem isSpace_of_mem_slotsText {slots : List Bool} {c : Char} (h : c ∈ slotsText slots) :
    isSpace c = false := by
  induction slots with
  | nil => cases h
  | cons slot slots ih =>
    have hslot : isSpace (slotChar slot) = false := by cases slot <;> decide
    by_cases hslots : slots = []
    · rw [hslots, slotsText_singleton, List.mem_singleton] at h
      rwa [h]
    · rw [slotsText_cons hslots, List.mem_cons, List.mem_cons] at h
      obtain rfl | rfl | h := h
      · exact hslot
      · rfl
      · exact ih h

theorem atoi_slotChar (slot : Bool) : (atoi [slotChar slot]).toUInt32 = slotValue slot := by
  cases slot <;> decide

/-- The first comma of slots is behind the first of them. -/
theorem findIdx?_slotsText {slots : List Bool} {pos : ℕ}
    (h : (slotsText slots).findIdx? (· = ',') = some pos) : pos = 1 := by
  cases slots with
  | nil => cases h
  | cons slot slots =>
    by_cases hslots : slots = []
    · subst hslots
      simp [slotChar_ne_comma] at h
    · rw [slotsText_cons hslots] at h
      simpa [List.findIdx?_cons, slotChar_ne_comma, eq_comm (a := pos)] using h.symm

theorem findComma_singleton (slot : Bool) : findComma [slotChar slot] = -1 := by
  cases slot <;> rfl

theorem findComma_cons (slot : Bool) (l : List Char) : findComma (slotChar slot :: ',' :: l) = 1 := by
  have hfind : (slotChar slot :: ',' :: l).findIdx? (· = ',') = some 1 := by
    simp [List.findIdx?_cons, slotChar_ne_comma]
  rw [findComma, hfind]
  rfl

/-- Slots are read one after the other. -/
theorem readSlots_slotsText {slots : List Bool} (h : slots ≠ []) (word : List UInt32)
    (numCols : UInt32) : readSlots (slotsText slots) word numCols =
      .ok (word ++ slots.map slotValue, numCols + UInt32.ofNat slots.length) := by
  induction slots generalizing word numCols with
  | nil => exact absurd rfl h
  | cons slot slots ih =>
    by_cases hslots : slots = []
    · subst hslots
      rw [slotsText_singleton, readSlots, findComma_singleton, dif_neg (by decide),
        if_pos (isSlot_iff.mpr ⟨slot, rfl⟩), atoi_slotChar]
      rfl
    · have hfield : (slotChar slot :: ',' :: slotsText slots).take (1 : Int32).toInt.toNat =
          [slotChar slot] := rfl
      have hrest : (slotChar slot :: ',' :: slotsText slots).drop ((1 : Int32).toInt.toNat + 1) =
          slotsText slots := rfl
      rw [slotsText_cons hslots, readSlots, findComma_cons, dif_pos (by decide), hfield, hrest,
        if_pos (isSlot_iff.mpr ⟨slot, rfl⟩), atoi_slotChar, ih hslots, List.append_assoc,
        UInt32.add_assoc, ← ofNat_length_cons slot]
      rfl

/-- A comma the loop goes on with, whose position is taken modulo 2^32. -/
theorem findComma_pos {line : List Char} (h : 0 < findComma line) :
    ∃ pos, line.findIdx? (· = ',') = some pos ∧
      (findComma line).toInt.toNat = pos % 4294967296 ∧ 0 < pos % 4294967296 := by
  unfold findComma at h ⊢
  split at h
  · exact absurd h (by decide)
  · rename_i pos hpos
    refine ⟨pos, hpos, ?_⟩
    rw [Int32.lt_iff_toInt_lt, Int32.toInt_ofNat', Int32.toInt_zero, Int.bmod_def] at h
    rw [Int32.toInt_ofNat', Int.bmod_def]
    simp only [Int32.size] at h ⊢
    split_ifs at h ⊢ with hlt
    · omega
    · omega

/-- A first field with slots behind it. A comma so far off that its position does not fit in an
int does not help: the slots behind the first field would begin with more than one character. -/
theorem eq_slotsText_cons {line : List Char} {slot : Bool} {slots : List Bool} (hne : slots ≠ [])
    (hpos : 0 < findComma line)
    (hslot : line.take (findComma line).toInt.toNat = [slotChar slot])
    (hrest : line.drop ((findComma line).toInt.toNat + 1) = slotsText slots) :
    line = slotsText (slot :: slots) := by
  obtain ⟨pos, hfind, hnat, hlt⟩ := findComma_pos hpos
  have hlength := (List.findIdx?_eq_some_iff_getElem.mp hfind).1
  have hone : (findComma line).toInt.toNat = 1 := by
    have hlen := congrArg List.length hslot
    rw [List.length_take, List.length_singleton] at hlen
    have hmod := Nat.mod_le pos 4294967296
    omega
  rw [hone] at hslot hrest
  obtain ⟨a, b, line, rfl⟩ : ∃ a b l, line = a :: b :: l := by
    rcases line with _ | ⟨a, _ | ⟨b, line⟩⟩
    · cases hfind
    · have hzero : pos = 0 := Nat.lt_one_iff.mp hlength
      rw [hzero] at hlt
      exact absurd hlt (by decide)
    · exact ⟨a, b, line, rfl⟩
  have ha : a = slotChar slot := List.singleton_inj.mp hslot
  have hline : line = slotsText slots := hrest
  subst ha hline
  have hb : b = ',' := by
    by_contra hb
    rw [List.findIdx?_cons, List.findIdx?_cons] at hfind
    simp only [slotChar_ne_comma, hb, decide_false, Bool.false_eq_true, if_false, Option.map_map,
      Option.map_eq_some_iff] at hfind
    obtain ⟨next, hnext, rfl⟩ := hfind
    rw [hone, findIdx?_slotsText hnext] at hnat
    exact absurd hnat (by decide)
  rw [hb, slotsText_cons hne]

/-- Nothing but slots is read to the end. -/
theorem of_readSlots {line : List Char} {word : List UInt32} {numCols : UInt32}
    {r : List UInt32 × UInt32} (h : readSlots line word numCols = .ok r) :
    ∃ slots, slots ≠ [] ∧ line = slotsText slots := by
  fun_induction readSlots line word numCols with
  | case1 line word numCols pos hpos field hfield ih =>
    obtain ⟨slots, hne, hrest⟩ := ih h
    obtain ⟨slot, hslot⟩ := isSlot_iff.mp hfield
    exact ⟨slot :: slots, List.cons_ne_nil _ _, eq_slotsText_cons hne hpos hslot hrest⟩
  | case2 => cases h
  | case3 line word numCols pos hpos hslot =>
    obtain ⟨slot, rfl⟩ := isSlot_iff.mp hslot
    exact ⟨[slot], List.cons_ne_nil _ _, rfl⟩
  | case4 => cases h

theorem readSlots_error {line : List Char} {word : List UInt32} {numCols : UInt32} {f : Fault}
    (h : readSlots line word numCols = .error f) : f = .assertion := by
  fun_induction readSlots line word numCols with
  | case1 line word numCols pos hpos field hfield ih => exact ih h
  | case2 => cases h; rfl
  | case3 => cases h
  | case4 => cases h; rfl

/-! ### Lines -/

/-- A line of a slot file. -/
structure SlotRow where
  nodeId : List Char
  slots : List Bool
  nodeId_ne : nodeId ≠ []
  colon_notMem : ':' ∉ nodeId
  slots_ne : slots ≠ []

namespace SlotRow

def text (r : SlotRow) : List Char := r.nodeId ++ ':' :: slotsText r.slots

theorem text_ne_nil (r : SlotRow) : r.text ≠ [] := List.append_ne_nil_of_right_ne_nil _ (List.cons_ne_nil _ _)

def values (r : SlotRow) : List UInt32 := (atoi r.nodeId).toUInt32 :: r.slots.map slotValue

theorem length_values (r : SlotRow) : r.values.length = r.slots.length + 1 := by
  simp [values]

end SlotRow

theorem nodeId_append {l rest : List Char} (h : ':' ∉ l) : nodeId (l ++ ':' :: rest) = l := by
  have hall : ∀ c ∈ l, decide (c ≠ ':') = true := fun c hc => by
    simpa using ne_of_mem_of_not_mem hc h
  rw [nodeId, List.takeWhile_append_of_pos hall]
  simp

theorem drop_colon (id rest : List Char) : (id ++ ':' :: rest).drop (id.length + 1) = rest := by
  rw [List.append_cons, List.drop_left' (by simp)]

/-- A line has its node id in front of a colon, or is all node id. -/
theorem eq_nodeId_append (line : List Char) :
    line = nodeId line ∨ ∃ rest, line = nodeId line ++ ':' :: rest := by
  have hsplit : nodeId line ++ line.dropWhile (· ≠ ':') = line := List.takeWhile_append_dropWhile
  cases hrest : line.dropWhile (· ≠ ':') with
  | nil =>
    rw [hrest, List.append_nil] at hsplit
    exact .inl hsplit.symm
  | cons c rest =>
    have hhead := List.head?_dropWhile_not (fun c : Char => decide (c ≠ ':')) line
    rw [hrest] at hsplit hhead
    have hc : c = ':' := by simpa using hhead
    exact .inr ⟨rest, by rw [← hc, hsplit]⟩

theorem nodeId_text (r : SlotRow) : nodeId r.text = r.nodeId := nodeId_append r.colon_notMem

variable {p p' : TdmaSlotAssignmentFileParser}

theorem readRow_text (p : TdmaSlotAssignmentFileParser) (r : SlotRow) :
    p.readRow r.text = .ok ⟨p.numRows + 1, p.numCols + UInt32.ofNat r.slots.length,
      p.slotArray ++ [r.values]⟩ := by
  have hrest : r.text.drop (r.nodeId.length + 1) = slotsText r.slots := drop_colon _ _
  rw [readRow, nodeId_text, hrest, readSlots_slotsText r.slots_ne]
  rfl

/-- A line that is accepted is a row. -/
theorem of_readRow {line : List Char} (hid : nodeId line ≠ []) (h : p.readRow line = .ok p') :
    ∃ r : SlotRow, line = r.text := by
  obtain ⟨⟨word, numCols⟩, hread, -⟩ := bind_eq_ok.mp h
  obtain ⟨slots, hne, hslots⟩ := of_readSlots hread
  have hcolon : ':' ∉ nodeId line := fun hmem => by
    have hall := List.mem_takeWhile_imp hmem
    simp at hall
  have hline := eq_nodeId_append line
  generalize nodeId line = id at hid hslots hcolon hline
  obtain rfl | ⟨rest, rfl⟩ := hline
  · -- nothing is left for the slots
    rw [List.drop_of_length_le (Nat.le_succ _)] at hslots
    exact absurd hslots.symm (slotsText_ne_nil hne)
  · refine ⟨⟨id, slots, hid, hcolon, hne⟩, ?_⟩
    rw [drop_colon] at hslots
    rw [SlotRow.text, hslots]

theorem readRow_error {line : List Char} {f : Fault} (h : p.readRow line = .error f) :
    f = .assertion := by
  unfold readRow at h
  dsimp only at h
  cases hread : readSlots (line.drop ((nodeId line).length + 1))
      [(atoi (nodeId line)).toUInt32] p.numCols with
  | error e =>
    rw [hread] at h
    cases h
    exact readSlots_error hread
  | ok r =>
    rw [hread] at h
    cases h

/-! ### Files -/

/-- The lines the parser reads: the words of the file up to one without a node id. -/
def rowWords : Option (List Char) → List (List Char)
  | none => []
  | some text => (words isSpace text).takeWhile fun line => nodeId line ≠ []

/-- The lines of a file of rows without white space, with or without an end of the last line. -/
theorem rowWords_intercalate {rows : List SlotRow}
    (h : ∀ r ∈ rows, ∀ c ∈ r.text, isSpace c = false) (final : Bool) :
    rowWords (some (['\n'].intercalate (rows.map SlotRow.text) ++ if final then ['\n'] else [])) =
      rows.map SlotRow.text := by
  have hwords : ∀ w ∈ rows.map SlotRow.text, w ≠ [] ∧ ∀ c ∈ w, isSpace c = false := by
    intro w hw
    obtain ⟨r, hr, rfl⟩ := List.mem_map.mp hw
    exact ⟨r.text_ne_nil, h r hr⟩
  rw [rowWords, words_intercalate isSpace (by decide) hwords, List.takeWhile_eq_self_iff]
  intro w hw
  obtain ⟨r, -, rfl⟩ := List.mem_map.mp hw
  simpa [nodeId_text] using r.nodeId_ne

theorem nodeId_ne_of_mem {file : Option (List Char)} {line : List Char}
    (h : line ∈ rowWords file) : nodeId line ≠ [] := by
  cases file with
  | none => cases h
  | some text => simpa using List.mem_takeWhile_imp h

theorem extract_eq {s : IStream} (heof : s.eof = false) (hfail : s.fail = false) :
    s.extract = ((nextWord isSpace s.rest).1, ⟨(nextWord isSpace s.rest).2,
      (nextWord isSpace s.rest).2 = [], (nextWord isSpace s.rest).1 = []⟩) := by
  rw [IStream.extract, if_neg (by simp [heof, hfail])]

/-- The main loop goes through the words of what is left to read. -/
theorem readRows_eq {s : IStream} (hfail : s.fail = false) (heof : s.eof = true → s.rest = [])
    (p : TdmaSlotAssignmentFileParser) :
    readRows s p = (rowWords (some s.rest)).foldlM readRow p := by
  rw [rowWords]
  fun_induction readRows s p with
  | case1 s p h =>
    rw [heof h, words_nil]
    rfl
  | case2 s p h hid =>
    have heof : s.eof = false := by simpa using h
    rw [extract_eq heof hfail] at hid
    by_cases hword : (nextWord isSpace s.rest).1 = []
    · rw [words_of_none _ hword]
      rfl
    · rw [words_of_some _ hword, List.takeWhile_cons_of_neg (by simpa using hid)]
      rfl
  | case3 s p h hid ih =>
    have heof : s.eof = false := by simpa using h
    rw [extract_eq heof hfail] at hid ih ⊢
    have hword : (nextWord isSpace s.rest).1 ≠ [] := by
      intro hword
      rw [hword] at hid
      exact hid rfl
    rw [words_of_some _ hword, List.takeWhile_cons_of_pos (by simpa using hid), List.foldlM_cons]
    congr 1
    funext p
    exact ih p (by simpa using hword) (by simp)

theorem readRows_openFile (file : Option (List Char)) (p : TdmaSlotAssignmentFileParser) :
    readRows (IStream.openFile file) p = (rowWords file).foldlM readRow p := by
  cases file with
  | none =>
    rw [readRows]
    rfl
  | some text => exact readRows_eq rfl (by simp [IStream.openFile]) p

/-- The number of slots of all rows. -/
def slotTotal (rows : List SlotRow) : ℕ := (rows.map fun r => r.slots.length).sum

theorem slotTotal_of_length {rows : List SlotRow} {m : ℕ} (h : ∀ r ∈ rows, r.slots.length = m) :
    slotTotal rows = rows.length * m := by
  rw [slotTotal, List.map_congr_left h, List.map_const', List.sum_replicate_nat]

theorem foldlM_readRow (rows : List SlotRow) (p : TdmaSlotAssignmentFileParser) :
    (rows.map SlotRow.text).foldlM readRow p =
      .ok ⟨p.numRows + UInt32.ofNat rows.length, p.numCols + UInt32.ofNat (slotTotal rows),
        p.slotArray ++ rows.map SlotRow.values⟩ := by
  induction rows generalizing p with
  | nil => simp [slotTotal, pure, Except.pure]
  | cons r rows ih =>
    rw [List.map_cons, List.foldlM_cons, readRow_text, ok_bind, ih]
    simp only [slotTotal, ofNat_length_cons, List.map_cons, List.sum_cons, UInt32.ofNat_add,
      UInt32.add_assoc, List.append_assoc, List.singleton_append]

/-- Lines that are all accepted are rows. -/
theorem of_foldlM_readRow {lines : List (List Char)} (hid : ∀ line ∈ lines, nodeId line ≠ [])
    (h : lines.foldlM readRow p = .ok p') : ∃ rows : List SlotRow, lines = rows.map SlotRow.text := by
  induction lines generalizing p with
  | nil => exact ⟨[], rfl⟩
  | cons line lines ih =>
    rw [List.foldlM_cons] at h
    obtain ⟨q, hq, hrest⟩ := bind_eq_ok.mp h
    obtain ⟨hline, hlines⟩ := List.forall_mem_cons.mp hid
    obtain ⟨r, rfl⟩ := of_readRow hline hq
    obtain ⟨rows, rfl⟩ := ih hlines hrest
    exact ⟨r :: rows, rfl⟩

theorem foldlM_readRow_error {lines : List (List Char)} {f : Fault}
    (h : lines.foldlM readRow p = .error f) : f = .assertion := by
  induction lines generalizing p with
  | nil => cases h
  | cons line lines ih =>
    rw [List.foldlM_cons] at h
    cases hq : p.readRow line with
    | error e =>
      rw [hq] at h
      cases h
      exact readRow_error hq
    | ok q =>
      rw [hq] at h
      exact ih h

/-- The rows as the parser counts them. -/
def rowCount (rows : List SlotRow) : ℕ := rows.length % 4294967296

/-- The slots of all rows as the parser counts them. -/
def slotCount (rows : List SlotRow) : ℕ := slotTotal rows % 4294967296

theorem rowCount_lt (rows : List SlotRow) : rowCount rows < 4294967296 := Nat.mod_lt _ (by decide)

theorem slotCount_lt (rows : List SlotRow) : slotCount rows < 4294967296 := Nat.mod_lt _ (by decide)

/-- The end of the parse, when all rows have been read. -/
theorem parse_of_rows {file : Option (List Char)} {rows : List SlotRow}
    (h : rowWords file = rows.map SlotRow.text) :
    parseTdmaSlotInformation file =
      if rowCount rows = 0 then .error .divisionByZero
      else if rowCount rows ∣ slotCount rows then
        .ok ⟨UInt32.ofNat (rowCount rows), UInt32.ofNat (slotCount rows / rowCount rows),
          rows.map SlotRow.values⟩
      else .error .assertion := by
  have hrows : UInt32.ofNat rows.length = UInt32.ofNat (rowCount rows) := UInt32.ofNat_mod_size.symm
  have hslots : UInt32.ofNat (slotTotal rows) = UInt32.ofNat (slotCount rows) :=
    UInt32.ofNat_mod_size.symm
  have hzero : ∀ {n : ℕ}, n < 4294967296 → (UInt32.ofNat n = 0 ↔ n = 0) := fun {n} hn => by
    rw [← UInt32.toNat_inj, UInt32.toNat_ofNat_of_lt' hn, UInt32.toNat_zero]
  have hmod : slotCount rows % rowCount rows < 4294967296 :=
    (Nat.mod_le _ _).trans_lt (slotCount_lt rows)
  rw [parseTdmaSlotInformation, readRows_openFile, h, foldlM_readRow]
  simp only [ok_bind, UInt32.zero_add, List.nil_append, hrows, hslots, hzero (rowCount_lt rows),
    ← UInt32.ofNat_mod (slotCount_lt rows) (rowCount_lt rows), hzero hmod, Nat.dvd_iff_mod_eq_zero,
    UInt32.ofNat_div (slotCount_lt rows) (rowCount_lt rows)]
  rfl

/-- A line that is no row fails an assertion. -/
theorem parse_of_no_rows {file : Option (List Char)}
    (h : ¬ ∃ rows : List SlotRow, rowWords file = rows.map SlotRow.text) :
    parseTdmaSlotInformation file = .error .assertion := by
  rw [parseTdmaSlotInformation, readRows_openFile]
  cases hread : (rowWords file).foldlM readRow {} with
  | error f =>
    rw [foldlM_readRow_error hread]
    rfl
  | ok p => exact absurd (of_foldlM_readRow (fun _ => nodeId_ne_of_mem) hread) h

/-- A file that is accepted has rows, and their number divides that of their slots. -/
theorem of_parse {file : Option (List Char)} {p : TdmaSlotAssignmentFileParser}
    (h : parseTdmaSlotInformation file = .ok p) : ∃ rows : List SlotRow,
      rowWords file = rows.map SlotRow.text ∧ rowCount rows ≠ 0 ∧ rowCount rows ∣ slotCount rows ∧
      p = ⟨UInt32.ofNat (rowCount rows), UInt32.ofNat (slotCount rows / rowCount rows),
        rows.map SlotRow.values⟩ := by
  by_cases hrows : ∃ rows : List SlotRow, rowWords file = rows.map SlotRow.text
  · obtain ⟨rows, hrows⟩ := hrows
    rw [parse_of_rows hrows] at h
    split_ifs at h with hzero hdvd
    cases h
    exact ⟨rows, hrows, hzero, hdvd, rfl⟩
  · rw [parse_of_no_rows hrows] at h
    cases h

/-- The only fault besides an assertion is that no row is counted. -/
theorem parse_error {file : Option (List Char)} {f : Fault}
    (h : parseTdmaSlotInformation file = .error f) : f = .assertion ∨ f = .divisionByZero ∧
      ∃ rows : List SlotRow, rowWords file = rows.map SlotRow.text ∧ rowCount rows = 0 := by
  by_cases hrows : ∃ rows : List SlotRow, rowWords file = rows.map SlotRow.text
  · obtain ⟨rows, hrows⟩ := hrows
    rw [parse_of_rows hrows] at h
    split_ifs at h with hzero hdvd
    · cases h
      exact .inr ⟨rfl, rows, hrows, hzero⟩
    · cases h
      exact .inl rfl
  · rw [parse_of_no_rows hrows] at h
    cases h
    exact .inl rfl

end TdmaSlotAssignmentFileParser

end SAeroRP
