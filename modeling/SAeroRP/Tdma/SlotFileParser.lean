import SAeroRP.Library.Words
import SAeroRP.Ns3.Basic

/-! The parser of slot files. A file has a line for each node: its id, a colon and its slots,
separated by commas. The parser reads the words of the file and not its lines. Characters are
bytes. -/

namespace SAeroRP

open Library

/-! ### Streams and numbers -/

/-- The white space of the standard locale: the blank, and the characters from tab to carriage
return. -/
def isSpace (c : Char) : Bool := c = ' ' || (9 ≤ c.toNat && c.toNat ≤ 13)

/-- An input stream: what is left to read, and its flags. -/
structure IStream where
  rest : List Char
  eof : Bool := false
  fail : Bool := false

namespace IStream

/-- A file that cannot be opened leaves a stream that has failed, but is not at its end. -/
def openFile : Option (List Char) → IStream
  | some text => { rest := text }
  | none => { rest := [], fail := true }

/-- Extraction into an empty string. A stream from which nothing can be read is left as it
is, and one that is read to its end is at its end. -/
def extract (s : IStream) : List Char × IStream :=
  if s.eof ∨ s.fail then ([], { s with fail := true })
  else
    let (word, rest) := nextWord isSpace s.rest
    (word, ⟨rest, rest = [], word = []⟩)

theorem length_extract_lt {s : IStream} (h : s.extract.1 ≠ []) :
    s.extract.2.rest.length < s.rest.length := by
  unfold extract at h ⊢
  split_ifs at h ⊢
  · exact absurd rfl h
  · exact length_nextWord_lt h

end IStream

/-- The value of the digits at the start, after white space and a sign, within the range of a
64-bit integer. -/
def strtol (s : List Char) : ℤ :=
  let s := s.dropWhile isSpace
  let digits (s : List Char) : ℤ := Nat.ofDigitChars 10 (s.takeWhile Char.isDigit) 0
  match s with
  | '-' :: s => max (-9223372036854775808) (-digits s)
  | '+' :: s => min 9223372036854775807 (digits s)
  | s => min 9223372036854775807 (digits s)

/-- What does not fit is undefined; here it is cut off, as the GNU library does. -/
def atoi (s : List Char) : Int32 := Int32.ofInt (strtol s)

/-! ### The parser -/

structure TdmaSlotAssignmentFileParser where
  numRows : UInt32 := 0
  numCols : UInt32 := 0
  slotArray : List (List UInt32) := []

namespace TdmaSlotAssignmentFileParser

def getNodeCount (p : TdmaSlotAssignmentFileParser) : UInt32 := p.numRows
def getTotalSlots (p : TdmaSlotAssignmentFileParser) : UInt32 := p.numCols
def getSlotArrays (p : TdmaSlotAssignmentFileParser) : List (List UInt32) := p.slotArray

/-- The position of the first comma as an int; npos becomes -1. -/
def findComma (line : List Char) : Int32 :=
  match line.findIdx? (· = ',') with
  | none => -1
  | some pos => Int32.ofNat pos

/-- What the assertions ask of a field. -/
def IsSlot (field : List Char) : Prop := field = ['0'] ∨ field = ['1']

instance (field : List Char) : Decidable (IsSlot field) := inferInstanceAs (Decidable (_ ∨ _))

theorem ne_nil_of_findComma {line : List Char} (h : 0 < findComma line) : line ≠ [] := by
  rintro rfl
  exact absurd h (by decide)

/-- The loop over the fields of a line, and its last field: the row with its slots, and the
count of all slots so far. -/
def readSlots (line : List Char) (word : List UInt32) (numCols : UInt32) :
    Except Fault (List UInt32 × UInt32) :=
  let pos := findComma line
  if _h : 0 < pos then
    let field := line.take pos.toInt.toNat
    if IsSlot field then
      readSlots (line.drop (pos.toInt.toNat + 1)) (word ++ [(atoi field).toUInt32]) (numCols + 1)
    else .error .assertion
  else if IsSlot line then .ok (word ++ [(atoi line).toUInt32], numCols + 1)
  else .error .assertion
termination_by line.length
decreasing_by
  have hpos := List.length_pos_iff.mpr (ne_nil_of_findComma _h)
  rw [List.length_drop]
  omega

/-- The part of a line before the first colon. -/
def nodeId (line : List Char) : List Char := line.takeWhile (· ≠ ':')

/-- The rest of the round of the main loop for a line with a node id. -/
def readRow (p : TdmaSlotAssignmentFileParser) (line : List Char) :
    Except Fault TdmaSlotAssignmentFileParser := do
  let nodeId := nodeId line
  let line := line.drop (nodeId.length + 1)
  let (word, numCols) ← readSlots line [(atoi nodeId).toUInt32] p.numCols
  return ⟨p.numRows + 1, numCols, p.slotArray ++ [word]⟩

/-- The main loop. It ends at the end of the file and at a line without a node id. -/
def readRows (s : IStream) (p : TdmaSlotAssignmentFileParser) :
    Except Fault TdmaSlotAssignmentFileParser :=
  if s.eof then .ok p
  else if _h : nodeId s.extract.1 = [] then .ok p
  else do
    let p ← p.readRow s.extract.1
    readRows s.extract.2 p
termination_by s.rest.length
decreasing_by
  refine IStream.length_extract_lt fun hnil => _h ?_
  rw [hnil]
  rfl

/-- ParseTdmaSlotInformation. `none` is a file that cannot be opened. -/
def parseTdmaSlotInformation (file : Option (List Char)) :
    Except Fault TdmaSlotAssignmentFileParser := do
  let p ← readRows (IStream.openFile file) {}
  if p.numRows = 0 then .error .divisionByZero
  else if p.numCols % p.numRows = 0 then return { p with numCols := p.numCols / p.numRows }
  else .error .assertion

end TdmaSlotAssignmentFileParser

end SAeroRP
