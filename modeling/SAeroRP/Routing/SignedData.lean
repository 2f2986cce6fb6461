import SAeroRP.Library.Writes
import SAeroRP.Packet.Codec
import SAeroRP.Routing.Authentication

/-! The data that are signed, as SetANData and SetGSData write them: byte by byte, into
arrays that may hold anything before, at indices counted from the end of the array. -/

namespace SAeroRP.SignedData

open Library

/-- SetANData. -/
def setANData (timer : UInt64) (randno : UInt32) (identifier : UInt8) (ANdata : Writes UInt8)
    (size : ℕ) : Option (Writes UInt8) := do
  let ANdata ← ANdata.copyLoop 0 (size - 5) (Wire.writeU64 timer)
  let ANdata ← ANdata.copyLoop (size - 5) (size - 1) (Wire.writeU32 randno)
  ANdata.copyLoop (size - 1) size (Wire.writeU8 identifier)

/-- SetGSData. -/
def setGSData (timer : UInt64) (gsrandno anrandno : UInt32) (identifier : UInt8)
    (encryptedshkey : Block RSA_KEY_SIZE) (GSdata : Writes UInt8) (size : ℕ) :
    Option (Writes UInt8) := do
  let GSdata ← GSdata.copyLoop 0 (size - 265) (Wire.writeU64 timer)
  let GSdata ← GSdata.copyLoop (size - 265) (size - 261) (Wire.writeU32 gsrandno)
  let GSdata ← GSdata.copyLoop (size - 261) (size - 257) (Wire.writeU32 anrandno)
  let GSdata ← GSdata.copyLoop (size - 257) (size - 256) (Wire.writeU8 identifier)
  GSdata.copyLoop (size - 256) size encryptedshkey.toList

/-! ### What the loops write -/

section
variable (timer : UInt64) (randno gsrandno anrandno : UInt32) (identifier : UInt8)
  (encryptedshkey : Block RSA_KEY_SIZE)

/-- The loops fill the whole array in order, with the data of the message. -/
theorem setANData_eq (old : Block AN_DATA_SIZE) :
    setANData timer randno identifier (.ofList old.toList) AN_DATA_SIZE =
      some ⟨(SAeroRP.setANData timer randno identifier).toList, List.range AN_DATA_SIZE⟩ := by
  have hold : old.toList.length = 13 := old.toList_length
  show ((Writes.copyLoop 0 8 _ (Writes.filled [] old.toList)).bind fun ANdata =>
    (ANdata.copyLoop 8 12 _).bind fun ANdata => ANdata.copyLoop 12 13 _) = _
  rw [Writes.copyLoop_filled, Option.bind_some, Writes.copyLoop_filled, Option.bind_some,
    Writes.copyLoop_filled, Writes.filled_of_length, hold]
  · rfl
  all_goals simp [hold]

theorem setGSData_eq (old : Block GS_DATA_SIZE) :
    setGSData timer gsrandno anrandno identifier encryptedshkey (.ofList old.toList)
        GS_DATA_SIZE =
      some ⟨(SAeroRP.setGSData timer gsrandno anrandno identifier encryptedshkey).toList,
        List.range GS_DATA_SIZE⟩ := by
  have hold : old.toList.length = 273 := old.toList_length
  have hkey : encryptedshkey.toList.length = 256 := encryptedshkey.toList_length
  show ((Writes.copyLoop 0 8 _ (Writes.filled [] old.toList)).bind fun GSdata =>
    (GSdata.copyLoop 8 12 _).bind fun GSdata => (GSdata.copyLoop 12 16 _).bind fun GSdata =>
      (GSdata.copyLoop 16 17 _).bind fun GSdata => GSdata.copyLoop 17 273 _) = _
  rw [Writes.copyLoop_filled, Option.bind_some, Writes.copyLoop_filled, Option.bind_some,
    Writes.copyLoop_filled, Option.bind_some, Writes.copyLoop_filled, Option.bind_some,
    Writes.copyLoop_filled, Writes.filled_of_length, hold]
  · rfl
  all_goals simp [hold, hkey]

end

end SAeroRP.SignedData
