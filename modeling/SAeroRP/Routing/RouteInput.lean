import SAeroRP.Routing.RouteOutput

/-! RouteInput: a packet arrives, from outside or back over the loopback device.
It is deferred, delivered to the node's own upper layer or forwarded. A data
packet of the encrypted size is decrypted on delivery; the result of the tag
check is logged and decides nothing, and the plaintext is not used. -/

namespace SAeroRP

open Library

structure RouteInputResult where
  handled : Bool
  node : Node
  effects : List Effect
  /-- What the tag check of the data packet returned, where it was made. -/
  check : Option ℤ := none

namespace Node

section Decryption
variable {β : Type} (E : Env β) (chance : Chance) (n : Node)

/-- The check of a data packet of PACKET_DATA_LEN_AFTER_ENCRYPTON bytes. The copy
asks for PACKET_DATA_LEN_FINAL bytes, so the last of them stay undetermined; the
first 8 are taken for a UDP header and skipped. -/
def dataCheck (p : Packet) : ℤ :=
  let totalSecurePacket := Block.copyData chance.byte PACKET_DATA_LEN_FINAL p.bytes
  let totalCipher := totalSecurePacket.slice 8 PACKET_DATA_LEN_AFTER_ENCRYPTON (by decide)
  let cipher := totalCipher.slice 0 PACKET_DATA_LEN_BEFORE_ENCRYPTON (by decide)
  let tag := totalCipher.slice PACKET_DATA_LEN_BEFORE_ENCRYPTON TAG_SIZE (by decide)
  (GCMConverter.dencryption E.gcm cipher n.gcmAadToBeChecked tag n.sharedKey (gcmIv p.uid)).1

end Decryption

/-- RouteInput treats the packet as an encrypted data packet. -/
def IsSecureData (p : Packet) (header : Ipv4Header) (n : Node) : Prop :=
  header.destination ≠ (n.ipv4.address 1).broadcast ∧
    p.getSize = PACKET_DATA_LEN_AFTER_ENCRYPTON ∧ n.securityState = true

instance (p : Packet) (header : Ipv4Header) (n : Node) : Decidable (n.IsSecureData p header) :=
  inferInstanceAs (Decidable (_ ∧ _ ∧ _))

section
variable {β : Type}

/-- Local delivery: both outcomes of the check of a data packet go on to the call
of the upper layer. -/
def localDelivery (E : Env β) (chance : Chance) (p : Packet) (header : Ipv4Header) (iif : ℕ)
    (lcb : Callback) (n : Node) : RouteInputResult where
  handled := true
  node := n
  effects := [.lcb lcb p header iif]
  check := if n.IsSecureData p header then some (n.dataCheck E chance p) else none

end

variable {β : Type} [Preorder β] [DecidableLT β] [DecidableEq β] [Zero β]

/-- RouteInput, for a packet that came in over interface `iif`. -/
def routeInput (E : Env β) (now : Time) (chance : Chance) (p : Packet) (header : Ipv4Header)
    (iif : ℕ) (ucb lcb ecb : Callback) (n : Node) : Except Fault RouteInputResult :=
  let n := { n with gcmAadToBeChecked := gcmAad header.source header.destination }
  if n.socketAddresses.isEmpty then .ok { handled := false, node := n, effects := [] }
  else if p.deferredTag ∧ n.isMyOwnAddress header.source then do
    let (n, effects) ← n.deferredRouteOutput now { p with deferredTag := false } header ucb ecb
    return { handled := true, node := n, effects }
  else if n.ipv4.isDestinationAddress header.destination iif then
    .ok (n.localDelivery E chance p header iif lcb)
  else do
    let (n, effects) ← n.forwarding E now p header ucb ecb
    return { handled := true, node := n, effects }

end Node

end SAeroRP
