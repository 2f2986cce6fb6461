import SAeroRP.Tables.NeighborTable
import SAeroRP.Tables.NodesPositionTable

/-! The control sockets of a node. The IP stack notifies the protocol of interfaces that
come up or go down and of addresses that are added or removed; the protocol keeps a socket
for the data interface in one map and one for the authentication interface in another.
Maps are ordered by the sockets' pointers, which are numbers here; the pointer of a socket
that is created is an argument. -/

namespace SAeroRP

/-- What the IP stack tells about the interfaces. -/
structure Ipv4L3Protocol where
  isUp : ℕ → Bool
  addresses : ℕ → List Ipv4InterfaceAddress

namespace Ipv4L3Protocol

def getNAddresses (l3 : Ipv4L3Protocol) (interface : ℕ) : ℕ := (l3.addresses interface).length

/-- The stack asserts that the interface has the address. -/
def getAddress (l3 : Ipv4L3Protocol) (interface index : ℕ) : Except Fault Ipv4InterfaceAddress :=
  match (l3.addresses interface)[index]? with
  | some a => .ok a
  | none => .error .assertion

end Ipv4L3Protocol

/-- A socket that listens on the control port. -/
structure ControlSocket where
  /-- The interface the notification that created it is about. -/
  interface : ℕ
  /-- The device it is bound to. -/
  device : Option NetDevice
  allowBroadcast : Bool
  isOpen : Bool := true
  deriving DecidableEq

structure SocketRegistry where
  /-- Every socket that was created. -/
  sockets : SocketId → Option ControlSocket := fun _ => none
  socketAddresses : Std.ExtTreeMap SocketId Ipv4InterfaceAddress := ∅
  authSocketAddresses : Std.ExtTreeMap SocketId Ipv4InterfaceAddress := ∅
  neighbors : NeighborTable := {}
  nodesPosition : NodesPositionTable := {}
  isGroundStation : Bool
  /-- m_godGroundStation is not null. -/
  godGroundStation : Bool := false

namespace SocketRegistry

/-- What Start does to the members the notifications use. -/
def start (r : SocketRegistry) : SocketRegistry :=
  { r with godGroundStation := r.godGroundStation || r.isGroundStation }

/-- Only the sockets of the data interface are searched. -/
def findSocketWithInterfaceAddress (addr : Ipv4InterfaceAddress) (r : SocketRegistry) :
    Option SocketId :=
  (r.socketAddresses.toList.find? fun j => j.2 = addr).map Prod.fst

/-- Creates a socket and inserts it in m_socketAddresses. -/
def register (new : SocketId) (socket : ControlSocket) (iface : Ipv4InterfaceAddress)
    (r : SocketRegistry) : SocketRegistry :=
  { r with
    sockets := Function.update r.sockets new (some socket)
    socketAddresses := r.socketAddresses.insert new iface }

/-- Creates a socket and inserts it in m_authSocketAddresses. -/
def registerAuth (new : SocketId) (socket : ControlSocket) (iface : Ipv4InterfaceAddress)
    (r : SocketRegistry) : SocketRegistry :=
  { r with
    sockets := Function.update r.sockets new (some socket)
    authSocketAddresses := r.authSocketAddresses.insert new iface }

def close (socket : SocketId) (r : SocketRegistry) : SocketRegistry :=
  { r with
    sockets := Function.update r.sockets socket
      ((r.sockets socket).map fun c => { c with isOpen := false }) }

def erase (socket : SocketId) (r : SocketRegistry) : SocketRegistry :=
  { r with socketAddresses := r.socketAddresses.erase socket }

/-- What happens when no socket is left: m_neighbors and m_godGroundStation are cleared. -/
def clear (r : SocketRegistry) : Except Fault SocketRegistry :=
  let r := { r with neighbors := r.neighbors.clear }
  if r.godGroundStation then .ok r else .error .nullPointer

def notifyInterfaceUp (l3 : Ipv4L3Protocol) (new : SocketId) (interface : ℕ)
    (r : SocketRegistry) : Except Fault SocketRegistry := do
  let iface ← l3.getAddress interface 0
  if iface.localAddress = Ipv4Address.loopback then return r
  else if interface = 1 then return r.register new ⟨interface, some interface, true, true⟩ iface
  else if interface = 2 then
    return r.registerAuth new ⟨interface, some interface, false, true⟩ iface
  else return r

def notifyInterfaceDown (l3 : Ipv4L3Protocol) (interface : ℕ) (r : SocketRegistry) :
    Except Fault SocketRegistry := do
  let iface ← l3.getAddress interface 0
  match r.findSocketWithInterfaceAddress iface with
  | none => .error .nullPointer
  | some socket =>
    let r := (r.close socket).erase socket
    if r.socketAddresses.isEmpty then
      let r ← r.clear
      return { r with nodesPosition := r.nodesPosition.clear }
    else return r

/-- The second half of NotifyAddAddress. The interface is compared within the argument of
GetNAddresses, so the addresses of interface 1 or 0 are counted. -/
def notifyAddAuthAddress (l3 : Ipv4L3Protocol) (new : SocketId) (interface : ℕ)
    (r : SocketRegistry) : Except Fault SocketRegistry :=
  if l3.getNAddresses (interface == 2).toNat ≠ 0 then do
    let iface ← l3.getAddress interface 0
    if (r.findSocketWithInterfaceAddress iface).isSome then return r
    else if iface.localAddress = Ipv4Address.loopback then return r
    else return r.registerAuth new ⟨interface, some interface, false, true⟩ iface
  else return r

/-- NotifyAddAddress, with the pointers of the socket each half may create. -/
def notifyAddAddress (l3 : Ipv4L3Protocol) (new newAuth : SocketId) (interface : ℕ)
    (r : SocketRegistry) : Except Fault SocketRegistry :=
  if !l3.isUp interface then return r
  else if l3.getNAddresses (interface == 1).toNat ≠ 0 then do
    let iface ← l3.getAddress interface 0
    if (r.findSocketWithInterfaceAddress iface).isSome then
      r.notifyAddAuthAddress l3 newAuth interface
    else if iface.localAddress = Ipv4Address.loopback then return r
    else
      (r.register new ⟨interface, some interface, true, true⟩ iface).notifyAddAuthAddress l3
        newAuth interface
  else r.notifyAddAuthAddress l3 newAuth interface

/-- The socket is not closed, and the one that takes its place is bound to no device. -/
def notifyRemoveAddress (l3 : Ipv4L3Protocol) (new : SocketId) (i : ℕ)
    (address : Ipv4InterfaceAddress) (r : SocketRegistry) : Except Fault SocketRegistry :=
  match r.findSocketWithInterfaceAddress address with
  | none => .ok r
  | some socket => do
    let r ← if l3.getNAddresses i ≠ 0 then do
        let iface ← l3.getAddress i 0
        pure ((r.erase socket).register new ⟨i, none, true, true⟩ iface)
      else pure (r.erase socket)
    if r.socketAddresses.isEmpty then r.clear
    else return r

/-! ### What the notifications do -/

section
variable (l3 : Ipv4L3Protocol) (new newAuth : SocketId) {socket : SocketId} {i : ℕ}
  {a address : Ipv4InterfaceAddress} {r : SocketRegistry}

theorem getAddress_of_nil (h : l3.addresses i = []) : l3.getAddress i 0 = .error .assertion := by
  rw [Ipv4L3Protocol.getAddress, h]
  rfl

theorem getAddress_of_head (h : (l3.addresses i).head? = some a) : l3.getAddress i 0 = .ok a := by
  rw [Ipv4L3Protocol.getAddress, ← List.head?_eq_getElem?, h]

theorem notifyInterfaceUp_nil (h : l3.addresses i = []) :
    r.notifyInterfaceUp l3 new i = .error .assertion := by
  rw [notifyInterfaceUp, getAddress_of_nil l3 h]
  rfl

theorem notifyInterfaceUp_eq (h : (l3.addresses i).head? = some a) :
    r.notifyInterfaceUp l3 new i = .ok (
      if a.localAddress = Ipv4Address.loopback then r
      else if i = 1 then r.register new ⟨i, some i, true, true⟩ a
      else if i = 2 then r.registerAuth new ⟨i, some i, false, true⟩ a
      else r) := by
  rw [notifyInterfaceUp, getAddress_of_head l3 h, ok_bind]
  split_ifs <;> rfl

theorem notifyInterfaceDown_nil (h : l3.addresses i = []) :
    r.notifyInterfaceDown l3 i = .error .assertion := by
  rw [notifyInterfaceDown, getAddress_of_nil l3 h]
  rfl

theorem notifyInterfaceDown_none (h : (l3.addresses i).head? = some a)
    (hfind : r.findSocketWithInterfaceAddress a = none) :
    r.notifyInterfaceDown l3 i = .error .nullPointer := by
  rw [notifyInterfaceDown, getAddress_of_head l3 h, ok_bind, hfind]

/-- Closing the last socket needs the object of the ground station. -/
theorem notifyInterfaceDown_last (h : (l3.addresses i).head? = some a)
    (hfind : r.findSocketWithInterfaceAddress a = some socket)
    (hlast : r.socketAddresses.erase socket = ∅) :
    r.notifyInterfaceDown l3 i =
      if r.godGroundStation = true then
        .ok { (r.close socket).erase socket with
          neighbors := r.neighbors.clear, nodesPosition := r.nodesPosition.clear }
      else .error .nullPointer := by
  have hempty : ((r.close socket).erase socket).socketAddresses.isEmpty = true :=
    Std.ExtTreeMap.isEmpty_iff.mpr hlast
  have hgod : ((r.close socket).erase socket).godGroundStation = r.godGroundStation := rfl
  rw [notifyInterfaceDown, getAddress_of_head l3 h, ok_bind, hfind]
  simp only [hempty, if_true, clear, hgod]
  split_ifs <;> rfl

/-- Nothing is created for an address that is found, nor for the loopback's. -/
theorem notifyAddAuthAddress_of_find (h : (l3.addresses i).head? = some a)
    (hfind : (r.findSocketWithInterfaceAddress a).isSome = true ∨
      a.localAddress = Ipv4Address.loopback) :
    r.notifyAddAuthAddress l3 newAuth i = .ok r := by
  rw [notifyAddAuthAddress]
  split_ifs with hcount
  · rw [getAddress_of_head l3 h, ok_bind]
    rcases hfind with hfind | hloopback
    · rw [if_pos hfind]
      rfl
    · rw [if_pos hloopback]
      split_ifs <;> rfl
  · rfl

theorem notifyAddAddress_down (h : l3.isUp i = false) :
    r.notifyAddAddress l3 new newAuth i = .ok r := by
  rw [notifyAddAddress, h]
  rfl

theorem find_register (new : SocketId) (c : ControlSocket) (a : Ipv4InterfaceAddress)
    (r : SocketRegistry) :
    ((r.register new c a).findSocketWithInterfaceAddress a).isSome = true := by
  have hmem : (new, a) ∈ (r.socketAddresses.insert new a).toList :=
    Std.ExtTreeMap.mem_toList_iff_getElem?_eq_some.mpr Std.ExtTreeMap.getElem?_insert_self
  rw [findSocketWithInterfaceAddress, Option.isSome_map, register, List.find?_isSome]
  exact ⟨(new, a), hmem, decide_eq_true rfl⟩

/-- The second half finds what the first has created, so every socket that is created goes
to the map of the data interface. -/
theorem notifyAddAddress_up (hup : l3.isUp i = true) (hcount : l3.addresses (i == 1).toNat ≠ [])
    (h : (l3.addresses i).head? = some a) :
    r.notifyAddAddress l3 new newAuth i = .ok (
      if (r.findSocketWithInterfaceAddress a).isSome = true ∨
        a.localAddress = Ipv4Address.loopback then r
      else r.register new ⟨i, some i, true, true⟩ a) := by
  have hne : l3.getNAddresses (i == 1).toNat ≠ 0 := fun h0 => hcount (List.length_eq_zero_iff.mp h0)
  rw [notifyAddAddress, hup, if_neg (by decide), if_pos hne, getAddress_of_head l3 h, ok_bind]
  by_cases hfind : (r.findSocketWithInterfaceAddress a).isSome = true
  · rw [if_pos hfind, if_pos (.inl hfind), notifyAddAuthAddress_of_find l3 newAuth h (.inl hfind)]
  · by_cases hloopback : a.localAddress = Ipv4Address.loopback
    · rw [if_neg hfind, if_pos hloopback, if_pos (.inr hloopback)]
      rfl
    · rw [if_neg hfind, if_neg hloopback, if_neg (not_or.mpr ⟨hfind, hloopback⟩),
        notifyAddAuthAddress_of_find l3 newAuth h (.inl (find_register ..))]

theorem notifyRemoveAddress_none (h : r.findSocketWithInterfaceAddress address = none) :
    r.notifyRemoveAddress l3 new i address = .ok r := by
  rw [notifyRemoveAddress, h]

/-- The socket of the address is replaced by one for the first address that is left. -/
theorem notifyRemoveAddress_head (h : (l3.addresses i).head? = some a)
    (hfind : r.findSocketWithInterfaceAddress address = some socket) :
    r.notifyRemoveAddress l3 new i address =
      .ok ((r.erase socket).register new ⟨i, none, true, true⟩ a) := by
  have hne : l3.getNAddresses i ≠ 0 := by
    rw [Ipv4L3Protocol.getNAddresses]
    intro h0
    rw [List.length_eq_zero_iff.mp h0] at h
    cases h
  have hempty : ((r.erase socket).register new ⟨i, none, true, true⟩ a).socketAddresses.isEmpty =
      false := Std.ExtTreeMap.isEmpty_eq_false_iff.mpr Std.ExtTreeMap.insert_ne_empty
  rw [notifyRemoveAddress, hfind]
  simp only [if_pos hne, getAddress_of_head l3 h, ok_bind, pure_bind, hempty]
  rfl

/-- Removing the last address of all needs the object of the ground station. -/
theorem notifyRemoveAddress_last (h : l3.addresses i = [])
    (hfind : r.findSocketWithInterfaceAddress address = some socket)
    (hlast : r.socketAddresses.erase socket = ∅) :
    r.notifyRemoveAddress l3 new i address =
      if r.godGroundStation = true then
        .ok { r.erase socket with neighbors := r.neighbors.clear }
      else .error .nullPointer := by
  have hzero : ¬ l3.getNAddresses i ≠ 0 := by
    rw [Ipv4L3Protocol.getNAddresses, h]
    simp
  have hempty : (r.erase socket).socketAddresses.isEmpty = true :=
    Std.ExtTreeMap.isEmpty_iff.mpr hlast
  rw [notifyRemoveAddress, hfind]
  simp only [if_neg hzero, pure_bind, hempty, if_true]
  rfl

end

end SocketRegistry

end SAeroRP
