import Mathlib.Data.Rat.Defs
import Mathlib.Data.Vector.Basic
import SAeroRP.Library.Bytes

/-! The simulator types the protocol is written against: times, addresses,
packets, headers, routes and the node's own IP stack. Times are nanoseconds and
coordinates are exact rationals. A call that leaves the defined behaviour of the
language, or fails an assertion, returns a `Fault` in place of a result; bytes
and numbers the program reads without having written them come from `Chance`. -/

namespace SAeroRP

open Library

/-! ### Faults and undetermined values -/

/-- Why a call has no result. -/
inductive Fault where
  /-- A header was read past the end of the packet. -/
  | pastEnd
  | nullPointer
  /-- The end iterator of a container was dereferenced. -/
  | endIterator
  /-- The front of an empty vector was taken. -/
  | emptyFront
  | assertion
  /-- Something was written past the end of an array. -/
  | bufferOverflow
  /-- An element was read past the end of a container. -/
  | outOfRange
  | divisionByZero
  deriving DecidableEq, Repr

theorem bind_eq_ok {α β : Type} {x : Except Fault α} {f : α → Except Fault β} {b : β} :
    x >>= f = .ok b ↔ ∃ a, x = .ok a ∧ f a = .ok b := by
  cases x with
  | error e => exact ⟨nofun, nofun⟩
  | ok a =>
    constructor
    · exact fun h => ⟨a, rfl, h⟩
    · rintro ⟨_, h, hf⟩
      cases h
      exact hf

@[simp] theorem ok_bind {α β : Type} (a : α) (f : α → Except Fault β) :
    (Except.ok a >>= f) = f a := rfl

theorem error_bind {α β : Type} (e : Fault) (f : α → Except Fault β) :
    (Except.error e >>= f) = .error e := rfl

theorem bind_ne_error {α β : Type} {x : Except Fault α} {f : α → Except Fault β} {e : Fault}
    (hx : x ≠ .error e) (hf : ∀ a, x = .ok a → f a ≠ .error e) : x >>= f ≠ .error e := by
  cases x with
  | error e' =>
    rintro heq
    cases heq
    exact hx rfl
  | ok a => exact hf a rfl

/-- Finding a result by evaluation. -/
theorem exists_of_any {α : Type} {x : Except Fault α} {f : α → Bool}
    (h : x.toOption.any f = true) : ∃ a, x = .ok a ∧ f a = true := by
  cases x with
  | error e => cases h
  | ok a => exact ⟨a, rfl, h⟩

/-- A vector of the simulator, in metres or metres per second. -/
@[ext] structure Vector3D where
  x : ℚ
  y : ℚ
  z : ℚ
  deriving DecidableEq, Repr

/-- What one call meets that its arguments do not determine. -/
structure Chance where
  /-- The velocity a message with an unknown sign code leaves unassigned. -/
  velocity : Vector3D
  /-- What the elements of an array hold before they are written. -/
  byte : ℕ → UInt8
  /-- The random padding of an RSA encryption. -/
  padding : ℕ
  /-- The uid of the next packet the simulator creates. -/
  freshUid : UInt64

/-! ### Time -/

/-- Simulation time in nanoseconds. -/
abbrev Time := ℤ

namespace Time

def seconds (n : ℤ) : Time := n * 1000000000
def milliSeconds (n : ℤ) : Time := n * 1000000

def microSeconds (n : ℤ) : Time := n * 1000

/-- Time::FromInteger in seconds: a new time, whatever object it is called through. -/
def fromInteger (n : UInt64) : Time := seconds n.toNat

/-- Whole milliseconds, rounded towards zero. -/
def getMilliSeconds (t : Time) : ℤ := t.tdiv 1000000

/-- Whole microseconds, rounded towards zero. -/
def getMicroSeconds (t : Time) : ℤ := t.tdiv 1000

theorem microSeconds_nonneg {n : ℤ} (h : 0 ≤ n) : 0 ≤ microSeconds n :=
  Int.mul_nonneg h (by decide)

theorem getMicroSeconds_microSeconds (n : ℤ) : (microSeconds n).getMicroSeconds = n :=
  Int.mul_tdiv_cancel n (by decide)

/-- Rounding to microseconds loses time, never gains any. -/
theorem microSeconds_getMicroSeconds_le {t : Time} (h : 0 ≤ t) :
    microSeconds t.getMicroSeconds ≤ t := by
  unfold microSeconds getMicroSeconds
  rw [Int.tdiv_eq_ediv_of_nonneg h]
  exact Int.ediv_mul_le t (by decide)

end Time

/-! ### Fixed-size arrays -/

/-- An array of `n` bytes. -/
abbrev Block (n : ℕ) := List.Vector UInt8 n

namespace Block

/-- The first `n` bytes of a buffer, as CopyData fills an array of `n` bytes: what
the buffer does not reach stays undetermined. -/
def copyData (unset : ℕ → UInt8) (n : ℕ) (bs : Bytes) : Block n :=
  ⟨(List.range n).map fun i => bs.getD i (unset i), by simp⟩

/-- `n` bytes of an array from position `i` on. -/
def slice {m : ℕ} (b : Block m) (i n : ℕ) (h : i + n ≤ m) : Block n :=
  ⟨(b.toList.drop i).take n, by simp; omega⟩

theorem toList_copyData (unset : ℕ → UInt8) {n : ℕ} {bs : Bytes} (h : n ≤ bs.length) :
    (copyData unset n bs).toList = bs.take n := by
  apply List.ext_getElem
  · simp [copyData, h]
  · intro i hi _
    have hi : i < n := by simpa [copyData] using hi
    simp [copyData, List.getElem?_eq_getElem (hi.trans_le h)]

/-- The copy of an array is the array. -/
theorem copyData_append (unset : ℕ → UInt8) {n : ℕ} (b : Block n) (rest : Bytes) :
    copyData unset n (b.toList ++ rest) = b := by
  apply Subtype.ext
  have hlen : b.toList.length = n := b.toList_length
  have hcopy := toList_copyData unset (show n ≤ (b.toList ++ rest).length by simp)
  rw [List.take_left' hlen] at hcopy
  exact hcopy

/-- A part of a copy is a copy of a part. -/
theorem slice_copyData (unset : ℕ → UInt8) (n : ℕ) (bs : Bytes) (i m : ℕ) (h : i + m ≤ n) :
    (copyData unset n bs).slice i m h = copyData (fun j => unset (i + j)) m (bs.drop i) := by
  apply Subtype.ext
  apply List.ext_getElem
  · simp [slice, copyData, List.Vector.toList]
    omega
  · intro j _ _
    simp [slice, copyData, List.Vector.toList, List.getElem?_drop]

end Block

/-! ### Addresses -/

/-- An IPv4 address as the number it stands for. -/
abbrev Ipv4Address := UInt32

namespace Ipv4Address

def ofOctets (a b c d : UInt8) : Ipv4Address :=
  a.toUInt32 <<< 24 ||| b.toUInt32 <<< 16 ||| c.toUInt32 <<< 8 ||| d.toUInt32

def getZero : Ipv4Address := 0
/-- The value of an address that was never set, 102.102.102.102. -/
def unset : Ipv4Address := 0x66666666
def loopback : Ipv4Address := ofOctets 127 0 0 1
/-- GROUND_STATION_ADDRESS. -/
def groundStation : Ipv4Address := ofOctets 192 168 1 1

/-- Network byte order: the most significant byte first. -/
def serialize (a : Ipv4Address) : Bytes := (leBytes 4 a.toNat).reverse

def deserialize (bs : Bytes) : Ipv4Address := UInt32.ofNat (leValue bs.reverse)

@[simp] theorem length_serialize (a : Ipv4Address) : a.serialize.length = 4 := by
  simp [serialize]

theorem deserialize_serialize (a : Ipv4Address) : deserialize a.serialize = a := by
  have ha : a.toNat < 256 ^ 4 := a.toNat_lt
  rw [deserialize, serialize, List.reverse_reverse, leValue_leBytes_of_lt ha, UInt32.ofNat_toNat]

theorem serialize_injective : Function.Injective serialize :=
  Function.LeftInverse.injective deserialize_serialize

end Ipv4Address

@[ext] structure Ipv4InterfaceAddress where
  localAddress : Ipv4Address
  mask : Ipv4Address
  broadcast : Ipv4Address
  deriving DecidableEq, Repr

/-! ### Packets, headers and routes -/

/-- A packet. `deferredTag` says whether a DeferredRouteOutputTag is attached. -/
@[ext] structure Packet where
  bytes : Bytes
  uid : UInt64
  deferredTag : Bool
  deriving DecidableEq, Repr

namespace Packet

def getSize (p : Packet) : ℕ := p.bytes.length

def addHeader (bs : Bytes) (p : Packet) : Packet := { p with bytes := bs ++ p.bytes }

/-- Reads a header off the front. -/
def removeHeader {α : Type} (r : Reader α) (p : Packet) : Except Fault (α × Packet) :=
  match r p.bytes with
  | none => .error .pastEnd
  | some (a, rest) => .ok (a, { p with bytes := rest })

theorem removeHeader_addHeader {α : Type} {r : Reader α} {bs : Bytes} {a : α}
    (h : Reader.Reads r bs a) (p : Packet) : (p.addHeader bs).removeHeader r = .ok (a, p) := by
  simp [removeHeader, addHeader, h.run]

/-- Reading a packet to its end. -/
theorem removeHeader_of_reads {α : Type} {r : Reader α} {a : α} {p : Packet}
    (h : Reader.Reads r p.bytes a) : p.removeHeader r = .ok (a, { p with bytes := [] }) := by
  simp [removeHeader, h.run_nil]

end Packet

structure Ipv4Header where
  source : Ipv4Address
  destination : Ipv4Address
  deriving DecidableEq, Repr

/-- A device is named by the number of its interface. -/
abbrev NetDevice := ℕ

@[ext] structure Ipv4Route where
  destination : Ipv4Address := Ipv4Address.unset
  source : Ipv4Address := Ipv4Address.unset
  gateway : Ipv4Address := Ipv4Address.unset
  outputDevice : Option NetDevice := none
  deriving DecidableEq, Repr

inductive SocketErrno where
  | errorNotError
  | errorNoRouteToHost
  deriving DecidableEq, Repr

abbrev SocketId := ℕ
/-- Callbacks are named; calling one is an effect. -/
abbrev Callback := ℕ

/-- A packet as RecvFrom returns it, with the address of its sender. -/
structure Datagram where
  sender : Ipv4Address
  packet : Packet
  deriving DecidableEq, Repr

/-! ### The IP stack of a node -/

/-- Interface 0 is the loopback, 1 carries data and 2 the authentication
traffic. `isDestinationAddress` is the stack's own test for local delivery. -/
structure Ipv4 where
  nInterfaces : ℕ
  addresses : ℕ → List Ipv4InterfaceAddress
  isDestinationAddress : Ipv4Address → ℕ → Bool

namespace Ipv4

/-- GetAddress, for the first address of an interface. The stack asserts that there is one. -/
def getAddress (ip : Ipv4) (interface : ℕ) : Except Fault Ipv4InterfaceAddress :=
  match (ip.addresses interface).head? with
  | some a => .ok a
  | none => .error .assertion

/-- What GetAddress returns for an interface that has an address. -/
def address (ip : Ipv4) (interface : ℕ) : Ipv4InterfaceAddress :=
  (ip.addresses interface).headD ⟨Ipv4Address.unset, Ipv4Address.unset, Ipv4Address.unset⟩

/-- The interface has an address. -/
def HasAddress (ip : Ipv4) (interface : ℕ) : Prop := ip.addresses interface ≠ []

instance (ip : Ipv4) (interface : ℕ) : Decidable (ip.HasAddress interface) :=
  inferInstanceAs (Decidable (_ ≠ _))

theorem getAddress_eq (ip : Ipv4) (interface : ℕ) : ip.getAddress interface =
    if ip.HasAddress interface then .ok (ip.address interface) else .error .assertion := by
  by_cases h : ip.HasAddress interface
  · obtain ⟨a, l, hl⟩ := List.exists_cons_of_ne_nil h
    rw [if_pos h, getAddress, address, hl]
    rfl
  · rw [if_neg h, getAddress, not_not.mp h]
    rfl

/-- The first interface that holds the address. -/
def getInterfaceForAddress (ip : Ipv4) (a : Ipv4Address) : Option ℕ :=
  (List.range ip.nInterfaces).find? fun i => (ip.addresses i).any fun b => b.localAddress = a

end Ipv4

end SAeroRP
