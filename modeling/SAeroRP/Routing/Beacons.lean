import SAeroRP.Library.Truncate
import SAeroRP.Routing.Node

/-! The advertisements a node sends on its timers: SendHello tells the neighbours
where the node is and how it moves, SendGroundStationPackets tells them the same
of every node. Each sends one message over every socket of the data interfaces. -/

namespace SAeroRP

open Library

/-- A coordinate as a uint32_t, rounded towards zero. What the conversion makes of
a value that does not fit is left open. -/
def castUInt32 (outOfRange : ℚ → UInt32) (x : ℚ) : UInt32 :=
  let t := x.num.tdiv x.den
  if 0 ≤ t ∧ t < 2 ^ 32 then UInt32.ofNat t.toNat else outOfRange x

/-- The conversion of the number to a uint32_t is in range. -/
def FitsUInt32 (x : ℚ) : Prop := 0 ≤ truncate x ∧ truncate x < 2 ^ 32

theorem toNat_castUInt32 (outOfRange : ℚ → UInt32) {x : ℚ} (h : FitsUInt32 x) :
    ((castUInt32 outOfRange x).toNat : ℚ) = truncate x := by
  obtain ⟨h0, hlt⟩ := h
  have hlt' : (truncate x).toNat < 2 ^ 32 := by omega
  have hnat : (((truncate x).toNat : ℕ) : ℤ) = truncate x := Int.toNat_of_nonneg h0
  rw [castUInt32, tdiv_num_den, if_pos ⟨h0, hlt⟩, UInt32.toNat_ofNat_of_lt' hlt',
    ← Int.cast_natCast, hnat]

theorem fitsUInt32_of_nonneg {x : ℚ} (h0 : 0 ≤ x) (hlt : x < 2 ^ 32) : FitsUInt32 x :=
  ⟨truncate_nonneg h0, truncate_lt h0 (by exact_mod_cast hlt)⟩

/-- The record of all positions and velocities that the ground station reads, as
they are and as an attack reports them. -/
structure GodGroundStation where
  getPosition : Ipv4Address → Vector3D
  getVelocity : Ipv4Address → Vector3D
  getFaultedPosition : Ipv4Address → Vector3D
  getFaultedVelocity : Ipv4Address → Vector3D

/-- The all-hosts broadcast on a /32 address, the subnet's broadcast otherwise. -/
def beaconDestination (iface : Ipv4InterfaceAddress) : Ipv4Address :=
  if iface.mask = .ofOctets 255 255 255 255 then .ofOctets 255 255 255 255 else iface.broadcast

/-- VelocitySign and the three components SendHello writes for a velocity. At most
one of the seven cases of a negative component holds. -/
def helloVelocityFields (v : Vector3D) : UInt8 × Vector3D :=
  if v.x < 0 ∨ v.y < 0 ∨ v.z < 0 then
    if v.x < 0 ∧ v.y < 0 ∧ v.z < 0 then (1, ⟨-1 * v.x, -1 * v.y, -1 * v.z⟩)
    else if v.x < 0 ∧ v.y < 0 ∧ v.z ≥ 0 then (2, ⟨-1 * v.x, -1 * v.y, v.z⟩)
    else if v.x < 0 ∧ v.y ≥ 0 ∧ v.z < 0 then (3, ⟨-1 * v.x, v.y, -1 * v.z⟩)
    else if v.x ≥ 0 ∧ v.y < 0 ∧ v.z < 0 then (4, ⟨v.x, -1 * v.y, -1 * v.z⟩)
    else if v.x < 0 ∧ v.y ≥ 0 ∧ v.z ≥ 0 then (5, ⟨-1 * v.x, v.y, v.z⟩)
    else if v.x ≥ 0 ∧ v.y < 0 ∧ v.z ≥ 0 then (6, ⟨v.x, -1 * v.y, v.z⟩)
    else if v.x ≥ 0 ∧ v.y ≥ 0 ∧ v.z < 0 then (7, ⟨v.x, v.y, -1 * v.z⟩)
    else (0, ⟨0, 0, 0⟩)
  else (0, v)

theorem helloVelocityFields_sign (v : Vector3D) : (helloVelocityFields v).1 ≤ 7 := by
  unfold helloVelocityFields
  split_ifs <;> dsimp only <;> decide

namespace Node

variable (outOfRange : ℚ → UInt32)

/-- The header of the messages one call of SendHello sends. -/
def helloHeader (n : Node) : HelloHeader :=
  let cast := castUInt32 outOfRange
  let (velocitySign, velocity) := helloVelocityFields n.velocity
  ⟨cast n.position.x, cast n.position.y, cast n.position.z, velocitySign, cast velocity.x,
    cast velocity.y, cast velocity.z⟩

def sendHello (n : Node) : List Effect :=
  n.socketAddresses.toList.map fun j =>
    .sendTo j.1 (TypeHeader.serialize ⟨.hello, true⟩ ++ (n.helloHeader outOfRange).serialize)
      (beaconDestination j.2)

/-- The header of the messages about one node; the velocity is written without
signs. -/
def gsGeoLocationHeader (god : GodGroundStation) (attackState : Bool) (nodeadd : Ipv4Address) :
    GSGeoLocationHeader :=
  let cast := castUInt32 outOfRange
  let position := if attackState then god.getFaultedPosition nodeadd else god.getPosition nodeadd
  let velocity := if attackState then god.getFaultedVelocity nodeadd else god.getVelocity nodeadd
  { node := nodeadd
    nodePosx := cast position.x
    nodePosy := cast position.y
    nodePosz := cast position.z
    nodeVelocityx := cast velocity.x
    nodeVelocityy := cast velocity.y
    nodeVelocityz := cast velocity.z }

/-- SendGroundStationPackets, for the addresses of the nodes in the order of the
simulator's list. -/
def sendGroundStationPackets (god : GodGroundStation) (attackState : Bool)
    (nodes : List Ipv4Address) (n : Node) : List Effect :=
  nodes.flatMap fun nodeadd =>
    n.socketAddresses.toList.map fun j =>
      .sendTo j.1
        (TypeHeader.serialize ⟨.gsGeoLocation, true⟩ ++
          (gsGeoLocationHeader outOfRange god attackState nodeadd).serialize)
        (beaconDestination j.2)

end Node

end SAeroRP
