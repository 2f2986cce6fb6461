import SAeroRP.Library.Run
import SAeroRP.Routing.SocketRegistry

/-! The data and the authentication interface of a node, which go up and down and gain and
lose addresses. The IP stack changes an interface and then notifies the protocol. The
loopback keeps its address and stays up. -/

namespace SAeroRP

open Library

namespace Ipv4L3Protocol

def setUp (i : ℕ) (l3 : Ipv4L3Protocol) : Ipv4L3Protocol :=
  { l3 with isUp := Function.update l3.isUp i true }

def setDown (i : ℕ) (l3 : Ipv4L3Protocol) : Ipv4L3Protocol :=
  { l3 with isUp := Function.update l3.isUp i false }

def addAddress (i : ℕ) (a : Ipv4InterfaceAddress) (l3 : Ipv4L3Protocol) : Ipv4L3Protocol :=
  { l3 with addresses := Function.update l3.addresses i (l3.addresses i ++ [a]) }

def removeAddress (i index : ℕ) (l3 : Ipv4L3Protocol) : Ipv4L3Protocol :=
  { l3 with addresses := Function.update l3.addresses i ((l3.addresses i).eraseIdx index) }

@[simp] theorem addresses_addAddress (i : ℕ) (a : Ipv4InterfaceAddress) (l3 : Ipv4L3Protocol) :
    (l3.addAddress i a).addresses i = l3.addresses i ++ [a] := by
  simp [addAddress]

@[simp] theorem addresses_removeAddress (i index : ℕ) (l3 : Ipv4L3Protocol) :
    (l3.removeAddress i index).addresses i = (l3.addresses i).eraseIdx index := by
  simp [removeAddress]

/-- The first address of an interface that is up. -/
def first (i : ℕ) (l3 : Ipv4L3Protocol) : Option Ipv4InterfaceAddress :=
  if l3.isUp i then (l3.addresses i).head? else none

end Ipv4L3Protocol

structure Interfaces where
  l3 : Ipv4L3Protocol
  registry : SocketRegistry

namespace Interfaces

/-- What happens to an interface, with the pointers of the sockets that may be created. -/
inductive Event where
  | start
  | setUp (interface : ℕ) (new : SocketId)
  | setDown (interface : ℕ)
  | addAddress (interface : ℕ) (address : Ipv4InterfaceAddress) (new newAuth : SocketId)
  | removeAddress (interface index : ℕ) (address : Ipv4InterfaceAddress) (new : SocketId)

/-- The data or the authentication interface. -/
def IsControl (interface : ℕ) : Prop := interface = 1 ∨ interface = 2

/-- The event fits the state of the interface. -/
def Consistent (s : Interfaces) : Event → Prop
  | .start => True
  | .setUp i new => IsControl i ∧ s.l3.isUp i = false ∧ s.registry.sockets new = none
  | .setDown i => IsControl i ∧ s.l3.isUp i = true
  | .addAddress i _ new newAuth =>
    IsControl i ∧ s.registry.sockets new = none ∧ s.registry.sockets newAuth = none ∧
      new ≠ newAuth
  | .removeAddress i index address new =>
    IsControl i ∧ (s.l3.addresses i)[index]? = some address ∧ s.registry.sockets new = none

/-- The stack after the event. -/
def change (l3 : Ipv4L3Protocol) : Event → Ipv4L3Protocol
  | .start => l3
  | .setUp i _ => l3.setUp i
  | .setDown i => l3.setDown i
  | .addAddress i address _ _ => l3.addAddress i address
  | .removeAddress i index _ _ => l3.removeAddress i index

/-- The call of the protocol; `l3` is the stack after the event. -/
def notify (l3 : Ipv4L3Protocol) (r : SocketRegistry) : Event → Except Fault SocketRegistry
  | .start => .ok r.start
  | .setUp i new => r.notifyInterfaceUp l3 new i
  | .setDown i => r.notifyInterfaceDown l3 i
  | .addAddress i _ new newAuth => r.notifyAddAddress l3 new newAuth i
  | .removeAddress i _ address new => r.notifyRemoveAddress l3 new i address

/-- The state after the event, and the fault of the call if it has one. -/
def perform (s : Interfaces) (e : Event) : Interfaces × Option Fault :=
  let l3 := change s.l3 e
  match notify l3 s.registry e with
  | .ok registry => (⟨l3, registry⟩, none)
  | .error f => (⟨l3, s.registry⟩, some f)

def Step (x : Transition Interfaces Event (Option Fault)) : Prop :=
  x.pre.Consistent x.event ∧ (x.post, x.out) = x.pre.perform x.event

/-- The transitions of a list of events. -/
def transitions (s : Interfaces) : List Event → List (Transition Interfaces Event (Option Fault))
  | [] => []
  | e :: es => ⟨s, e, (s.perform e).2, (s.perform e).1⟩ :: transitions (s.perform e).1 es

def performAll (s : Interfaces) : List Event → Interfaces
  | [] => s
  | e :: es => performAll (s.perform e).1 es

theorem run_transitions (s : Interfaces) (es : List Event)
    (h : ∀ x ∈ s.transitions es, x.pre.Consistent x.event) :
    Run Step s (s.transitions es) (s.performAll es) := by
  induction es generalizing s with
  | nil => exact .nil s
  | cons e es ih =>
    rw [transitions, List.forall_mem_cons] at h
    exact .cons rfl ⟨h.1, rfl⟩ (ih _ h.2)

/-- Only the loopback is up, and no socket has been created. -/
structure Initial (s : Interfaces) : Prop where
  isUp : ∀ i, IsControl i → s.l3.isUp i = false
  loopback : s.l3.addresses 0 ≠ []
  sockets : ∀ k, s.registry.sockets k = none
  socketAddresses : s.registry.socketAddresses = ∅
  authSocketAddresses : s.registry.authSocketAddresses = ∅

/-! ### Registered sockets -/

/-- An open socket in the map that was created for the interface. -/
def Owns (r : SocketRegistry) (m : Std.ExtTreeMap SocketId Ipv4InterfaceAddress) (i : ℕ)
    (k : SocketId) : Prop :=
  k ∈ m ∧ ∃ c, r.sockets k = some c ∧ c.interface = i ∧ c.isOpen = true

/-- An interface that is up and has an address owns one socket, in its map, and one that is
down owns none. -/
structure Registered (s : Interfaces) : Prop where
  data : s.l3.isUp 1 = true → s.l3.addresses 1 ≠ [] →
    (∃! k, Owns s.registry s.registry.socketAddresses 1 k) ∧
      ∀ k, ¬ Owns s.registry s.registry.authSocketAddresses 1 k
  authentication : s.l3.isUp 2 = true → s.l3.addresses 2 ≠ [] →
    (∃! k, Owns s.registry s.registry.authSocketAddresses 2 k) ∧
      ∀ k, ¬ Owns s.registry s.registry.socketAddresses 2 k
  down : ∀ i, IsControl i → s.l3.isUp i = false → ∀ k,
    ¬ Owns s.registry s.registry.socketAddresses i k ∧
      ¬ Owns s.registry s.registry.authSocketAddresses i k

/-- The call completes, and the sockets are as they should be. -/
def Lawful (x : Transition Interfaces Event (Option Fault)) : Prop :=
  x.out = none ∧ x.post.Registered

/-- The events that the protocol handles in a state. -/
def Handles (s : Interfaces) : Event → Prop
  | .start => True
  | .setUp i _ =>
    ∃ a, (s.l3.addresses i).head? = some a ∧ a.localAddress ≠ Ipv4Address.loopback
  | .setDown i => i = 1 ∧ s.l3.addresses 1 ≠ [] ∧ s.registry.godGroundStation = true
  | .addAddress i address _ _ =>
    s.l3.isUp i = true →
      if i = 1 then s.l3.addresses 1 = [] → address.localAddress ≠ Ipv4Address.loopback
      else ∃ a, (s.l3.addresses i ++ [address]).head? = some a ∧
        (a.localAddress = Ipv4Address.loopback ∨ s.l3.first 1 = some a)
  | .removeAddress i _ address _ =>
    if i = 1 then
      s.l3.isUp 1 = true → (s.l3.addresses 1).length = 1 → s.registry.godGroundStation = true
    else s.l3.first 1 ≠ some address

end Interfaces

end SAeroRP
