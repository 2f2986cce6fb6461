import SAeroRP.Ns3.Basic

/-! What the TDMA devices use of the simulator's wireless models: link addresses,
the header and the trailer of a frame, and data rates. -/

namespace SAeroRP

/-- Six bytes. -/
abbrev Mac48Address := Block 6

/-- The fields of a data frame's header that the devices set. -/
structure WifiMacHeader where
  addr1 : Mac48Address
  addr2 : Mac48Address
  addr3 : Mac48Address
  dsFrom : Bool
  dsTo : Bool
  deriving DecidableEq

/-- Frame control, duration, three addresses and the sequence number; a fourth
address where the frame goes from one distribution system to another. -/
def WifiMacHeader.getSize (hdr : WifiMacHeader) : ℕ :=
  24 + if hdr.dsTo && hdr.dsFrom then 6 else 0

/-- The frame check sequence. -/
def WifiMacTrailer.getSerializedSize : ℕ := 4

/-- A rate in bits a second, and the time in nanoseconds it is taken to need for a number
of bytes. The simulator computes that time in floating point; here it may be any
function. -/
structure DataRate where
  bitRate : ℕ
  calculateTxTime : ℕ → ℕ

/-- A rate that rounds its times down. -/
def DataRate.ofBps (bps : ℕ) : DataRate := ⟨bps, fun size => size * 8 * 1000000000 / bps⟩

end SAeroRP
