import SAeroRP.Properties.SecureControl

/-! What an advertisement says of a node's motion. Coordinates travel as unsigned whole
numbers. A HELLO carries the signs of the velocity in a code of their own, and conveys
position and velocity rounded toward zero; a GSGEOLOCATION carries no signs, and conveys
them only where no component of the velocity is below zero when rounded. -/

namespace SAeroRP

open Library Node

namespace Vector3D

/-- All three components satisfy `p`. -/
def Forall (p : ℚ → Prop) (v : Vector3D) : Prop := p v.x ∧ p v.y ∧ p v.z

/-- The components rounded toward zero. -/
def truncate (v : Vector3D) : Vector3D :=
  ⟨Library.truncate v.x, Library.truncate v.y, Library.truncate v.z⟩

end Vector3D

namespace AdvertisedMotion

/-! ### The signs of a velocity -/

/-- The code for which components are negative. -/
def signCode : Bool → Bool → Bool → UInt8
  | true, true, true => 1
  | true, true, false => 2
  | true, false, true => 3
  | false, true, true => 4
  | true, false, false => 5
  | false, true, false => 6
  | false, false, true => 7
  | false, false, false => 0

/-- SendHello writes the code of the signs and the magnitudes. -/
theorem helloVelocityFields_eq (v : Vector3D) :
    helloVelocityFields v = (signCode (decide (v.x < 0)) (decide (v.y < 0)) (decide (v.z < 0)),
      ⟨|v.x|, |v.y|, |v.z|⟩) := by
  unfold helloVelocityFields
  rcases lt_or_ge v.x 0 with hx | hx <;> rcases lt_or_ge v.y 0 with hy | hy <;>
    rcases lt_or_ge v.z 0 with hz | hz <;>
    simp [hx, hy, hz, abs_of_neg, abs_of_nonneg, not_lt.mpr, not_le.mpr, signCode]

/-- A component with the sign the code gives it. -/
def withSign (negative : Bool) (x : ℚ) : ℚ := if negative then -x else x

/-- RecvAERORP gives the magnitudes the signs of the code. -/
theorem helloVelocity_signCode (chance : Chance) (px py pz vx vy vz : UInt32) (x y z : Bool) :
    helloVelocity chance ⟨px, py, pz, signCode x y z, vx, vy, vz⟩ =
      ⟨withSign x vx.toNat, withSign y vy.toNat, withSign z vz.toNat⟩ := by
  cases x <;> cases y <;> cases z <;> rfl

/-- The whole part of a component from that of its magnitude and its sign. -/
theorem withSign_truncate_abs (x : ℚ) :
    withSign (decide (x < 0)) (truncate |x| : ℤ) = (truncate x : ℤ) := by
  rcases lt_or_ge x 0 with h | h
  · rw [decide_eq_true h, withSign, if_pos rfl, abs_of_neg h, truncate_neg, Int.cast_neg, neg_neg]
  · rw [decide_eq_false h.not_gt, withSign, if_neg Bool.false_ne_true, abs_of_nonneg h]

/-! ### Components that fit -/

theorem fits_of_nonneg {v : Vector3D} (h : v.Forall fun c => 0 ≤ c ∧ c < 2 ^ 32) :
    v.Forall FitsUInt32 := by
  obtain ⟨hx, hy, hz⟩ := h
  exact ⟨fitsUInt32_of_nonneg hx.1 hx.2, fitsUInt32_of_nonneg hy.1 hy.2,
    fitsUInt32_of_nonneg hz.1 hz.2⟩

theorem neg_one_lt_of_truncate_nonneg {x : ℚ} (h : 0 ≤ truncate x) : -1 < x :=
  lt_of_not_ge fun hle => h.not_gt (truncate_neg_iff.mpr hle)

/-- A fraction between -1 and 0 is rounded to 0, and fits. -/
theorem fitsUInt32_of_neg_one_lt {x : ℚ} (h : -1 < x) (hlt : |x| < 2 ^ 32) : FitsUInt32 x := by
  have h0 : 0 ≤ truncate x := le_of_not_gt fun hneg => h.not_ge (truncate_neg_iff.mp hneg)
  rcases lt_or_ge x 0 with hneg | hpos
  · exact ⟨h0, (truncate_nonpos hneg.le).trans_lt (by decide)⟩
  · exact fitsUInt32_of_nonneg hpos (abs_lt.mp hlt).2

/-! ### HELLO messages -/

section
variable {β : Type} {E : Env β} {outOfRange : ℚ → UInt32} {now : Time} {chance : Chance}
  {n m : Node} {d : Datagram} {socket : SocketId} {bytes : Bytes} {dst : Ipv4Address}

theorem helloPosition_helloHeader (h : n.position.Forall FitsUInt32) :
    helloPosition (n.helloHeader outOfRange) = n.position.truncate := by
  obtain ⟨hx, hy, hz⟩ := h
  simp only [helloPosition, helloHeader, toNat_castUInt32 outOfRange hx,
    toNat_castUInt32 outOfRange hy, toNat_castUInt32 outOfRange hz, Vector3D.truncate]

/-- The magnitude and the sign of a component give the component, rounded. -/
theorem withSign_castUInt32_abs {x : ℚ} (h : |x| < 2 ^ 32) :
    withSign (decide (x < 0)) (castUInt32 outOfRange |x|).toNat = truncate x := by
  rw [toNat_castUInt32 outOfRange (fitsUInt32_of_nonneg (abs_nonneg x) h), withSign_truncate_abs]

theorem helloVelocity_helloHeader (h : n.velocity.Forall (|·| < 2 ^ 32)) :
    helloVelocity chance (n.helloHeader outOfRange) = n.velocity.truncate := by
  obtain ⟨hx, hy, hz⟩ := h
  rw [helloHeader, helloVelocityFields_eq]
  dsimp only
  rw [helloVelocity_signCode, withSign_castUInt32_abs hx, withSign_castUInt32_abs hy,
    withSign_castUInt32_abs hz, Vector3D.truncate]

/-- A HELLO message leads a node that processes it to enter the sender's position and
velocity, rounded toward zero. -/
theorem hello_motion_truncated (hposition : n.position.Forall fun c => 0 ≤ c ∧ c < 2 ^ 32)
    (hvelocity : n.velocity.Forall (|·| < 2 ^ 32))
    (hsend : Effect.sendTo socket bytes dst ∈ n.sendHello outOfRange)
    (hlet : ¬ m.Ignores .hello) (hbytes : d.packet.bytes = bytes) :
    m.recvAERORP E now chance d =
      .ok (m.updateRouteToNeighbor now d.sender n.position.truncate n.velocity.truncate) := by
  obtain ⟨j, -, hj⟩ := List.mem_map.mp hsend
  cases hj
  rw [SecureControl.recvAERORP_hello hlet now hbytes, updateFromHello,
    helloPosition_helloHeader (fits_of_nonneg hposition), helloVelocity_helloHeader hvelocity]

end

/-- Node 1 of the sample in a turn. -/
def turning : Node :=
  { Sample.node 1 with position := ⟨3 / 2, 7, 0⟩, velocity := ⟨-7 / 2, 5 / 2, -1 / 2⟩ }

def turningBytes : Bytes :=
  TypeHeader.serialize ⟨.hello, true⟩ ++ (turning.helloHeader fun _ => 0).serialize

theorem hello_motion_truncated_turning : (Sample.node 0).recvAERORP Sample.env 1 Sample.chance
      ⟨.ofOctets 10 1 1 2, ⟨turningBytes, 5, false⟩⟩ =
    .ok ((Sample.node 0).updateRouteToNeighbor 1 (.ofOctets 10 1 1 2) ⟨1, 7, 0⟩ ⟨-3, 2, 0⟩) := by
  have hsend : Effect.sendTo 1 turningBytes (.ofOctets 10 1 1 255) ∈
      turning.sendHello fun _ => 0 := by decide +kernel
  have hposition : turning.position.truncate = ⟨1, 7, 0⟩ := by decide +kernel
  have hvelocity : turning.velocity.truncate = ⟨-3, 2, 0⟩ := by decide +kernel
  rw [← hposition, ← hvelocity]
  refine hello_motion_truncated ?_ ?_ hsend ?_ rfl
  · norm_num [Vector3D.Forall, turning]
  · norm_num [Vector3D.Forall, turning, abs_lt]
  · exact SecureControl.not_ignores_of_insecure rfl _

/-! ### GSGEOLOCATION messages -/

section
variable (outOfRange : ℚ → UInt32) (god : GodGroundStation) (attackState : Bool) (a : Ipv4Address)

/-- The position the ground station reports of a node. -/
def reportedPosition : Vector3D :=
  if attackState then god.getFaultedPosition a else god.getPosition a

def reportedVelocity : Vector3D :=
  if attackState then god.getFaultedVelocity a else god.getVelocity a

def gsMessage : Bytes :=
  TypeHeader.serialize ⟨.gsGeoLocation, true⟩ ++
    (gsGeoLocationHeader outOfRange god attackState a).serialize

/-- The messages SendGroundStationPackets sends are those about the nodes. -/
theorem sendGroundStationPackets_sent {n : Node} {nodes : List Ipv4Address} {e : Effect}
    (h : e ∈ n.sendGroundStationPackets outOfRange god attackState nodes) :
    ∃ a ∈ nodes, ∃ socket dst, e = .sendTo socket (gsMessage outOfRange god attackState a) dst := by
  obtain ⟨a, ha, h⟩ := List.mem_flatMap.mp h
  obtain ⟨j, -, hj⟩ := List.mem_map.mp h
  exact ⟨a, ha, j.1, _, hj.symm⟩

variable {β : Type} [Preorder β] [DecidableLT β] [DecidableEq β] [Zero β] (E : Env β)

/-- The message about a node is made without a conversion out of range, and leads every
node that processes it, plain or encrypted on the way, to the node's address and its
position and velocity, rounded toward zero. -/
structure Conveys : Prop where
  positionFits : (reportedPosition god attackState a).Forall FitsUInt32
  velocityFits : (reportedVelocity god attackState a).Forall FitsUInt32
  plain : ∀ (now : Time) (chance : Chance) (m : Node) (d : Datagram), ¬ m.Ignores .gsGeoLocation →
    d.packet.bytes = gsMessage outOfRange god attackState a →
    m.recvAERORP E now chance d = .ok (m.updateRouteToNodes now a
      (reportedPosition god attackState a).truncate (reportedVelocity god attackState a).truncate)
  secured : ∀ (sent now : Time) (chance chance' : Chance) (n m : Node) (uid : UInt64)
    (deferred : Bool) (header : Ipv4Header) (oif : Option NetDevice) (sockerr : SocketErrno)
    (r : RouteOutputResult) (p' : Packet) (d : Datagram), n.securityState = true →
    n.routeOutput E sent chance (some ⟨gsMessage outOfRange god attackState a, uid, deferred⟩)
      header oif sockerr = .ok r → r.packet = some p' → SecureControl.Matches n m header →
    d.packet.bytes = p'.bytes → d.packet.uid = uid →
    m.recvAERORP E now chance' d = .ok (m.updateRouteToNodes now a
      (reportedPosition god attackState a).truncate (reportedVelocity god attackState a).truncate)

variable {outOfRange god attackState a E}

theorem updateFromGSGeoLocation_gsGeoLocationHeader {now : Time} {m : Node}
    (hposition : (reportedPosition god attackState a).Forall FitsUInt32)
    (hvelocity : (reportedVelocity god attackState a).Forall FitsUInt32) :
    m.updateFromGSGeoLocation now (gsGeoLocationHeader outOfRange god attackState a) =
      m.updateRouteToNodes now a (reportedPosition god attackState a).truncate
        (reportedVelocity god attackState a).truncate := by
  have hcast := @toNat_castUInt32 outOfRange
  obtain ⟨hpx, hpy, hpz⟩ := hposition
  obtain ⟨hvx, hvy, hvz⟩ := hvelocity
  rw [reportedPosition] at hpx hpy hpz
  rw [reportedVelocity] at hvx hvy hvz
  simp only [updateFromGSGeoLocation, gsGeoLocationHeader, hcast hpx, hcast hpy, hcast hpz,
    hcast hvx, hcast hvy, hcast hvz, Vector3D.truncate, reportedPosition, reportedVelocity]

/-- A velocity that survives the message is nowhere negative when rounded: what arrives
are unsigned numbers. -/
theorem Conveys.velocity_nonneg (h : Conveys outOfRange god attackState a E) (m : Node) :
    (reportedVelocity god attackState a).Forall fun x => 0 ≤ truncate x := by
  let d : Datagram := ⟨a, ⟨gsMessage outOfRange god attackState a, 0, false⟩⟩
  have chance : Chance := ⟨⟨0, 0, 0⟩, fun _ => 0, 0, 0⟩
  have hlet := SecureControl.not_ignores_of_insecure
    (m := { m with securityState := false }) rfl .gsGeoLocation
  have hplain := h.plain 0 chance _ d hlet rfl
  rw [SecureControl.recvAERORP_gsGeoLocation hlet 0 rfl] at hplain
  have heffect := congrArg Prod.snd (Except.ok.inj hplain)
  simp only [updateFromGSGeoLocation, updateRouteToNodes, List.cons.injEq, and_true,
    Effect.updateRouteToNodes.injEq, Vector3D.truncate, Vector3D.mk.injEq] at heffect
  obtain ⟨-, -, hx, hy, hz⟩ := heffect
  have hcast : ∀ {k : ℕ} {x : ℚ}, (k : ℚ) = truncate x → 0 ≤ truncate x := fun h => by
    exact_mod_cast h ▸ Nat.cast_nonneg (α := ℚ) _
  exact ⟨hcast hx, hcast hy, hcast hz⟩

/-- What one node makes of a message whose conversions are in range, plain or encrypted. -/
theorem conveys_of_fits (hgcm : E.gcm.Inverts)
    (hposition : (reportedPosition god attackState a).Forall FitsUInt32)
    (hvelocity : (reportedVelocity god attackState a).Forall FitsUInt32) :
    Conveys outOfRange god attackState a E where
  positionFits := hposition
  velocityFits := hvelocity
  plain now _ m d hlet hbytes := by
    rw [SecureControl.recvAERORP_gsGeoLocation hlet now hbytes,
      updateFromGSGeoLocation_gsGeoLocationHeader hposition hvelocity]
  secured _ now chance chance' n m uid deferred header _ _ _ _ _ hsec hroute hp hm hbytes huid := by
    have hq := SecureControl.securePacket_of_gsGeoLocation E chance n header uid deferred
      (gsGeoLocationHeader outOfRange god attackState a)
    have hpacket := SecureControl.packet_of_routeOutput hsec hq hroute hp
    rw [SecureControl.recvAERORP_sealedGSGeoLocation chance' now hgcm hm huid
        (hbytes.trans hpacket),
      updateFromGSGeoLocation_gsGeoLocationHeader hposition hvelocity]

/-- The messages of SendGroundStationPackets are those about its nodes, and a message
conveys where its node is and how it moves if and only if every component of the
velocity is above -1. -/
theorem gsMessage_conveys_iff (hgcm : E.gcm.Inverts) (n : Node) (nodes : List Ipv4Address) :
    (∀ e ∈ n.sendGroundStationPackets outOfRange god attackState nodes, ∃ a ∈ nodes,
      ∃ socket dst, e = .sendTo socket (gsMessage outOfRange god attackState a) dst) ∧
    ∀ a, (reportedPosition god attackState a).Forall (fun c => 0 ≤ c ∧ c < 2 ^ 32) →
      (reportedVelocity god attackState a).Forall (|·| < 2 ^ 32) →
      (Conveys outOfRange god attackState a E ↔
        (reportedVelocity god attackState a).Forall (-1 < ·)) := by
  refine ⟨fun e he => sendGroundStationPackets_sent outOfRange god attackState he,
    fun a hposition hvelocity => ⟨fun h => ?_, fun h => ?_⟩⟩
  · obtain ⟨hx, hy, hz⟩ := h.velocity_nonneg n
    exact ⟨neg_one_lt_of_truncate_nonneg hx, neg_one_lt_of_truncate_nonneg hy,
      neg_one_lt_of_truncate_nonneg hz⟩
  · obtain ⟨hx, hy, hz⟩ := h
    exact conveys_of_fits hgcm (fits_of_nonneg hposition)
      ⟨fitsUInt32_of_neg_one_lt hx hvelocity.1, fitsUInt32_of_neg_one_lt hy hvelocity.2.1,
        fitsUInt32_of_neg_one_lt hz hvelocity.2.2⟩

end

/-- A record in which all nodes are at the same place and fly with the same velocity. -/
def formation (position velocity : Vector3D) : GodGroundStation :=
  ⟨fun _ => position, fun _ => velocity, fun _ => position, fun _ => velocity⟩

theorem gsMessage_conveys_iff_eastbound :
    Conveys (fun _ => 0) (formation ⟨3 / 2, 7, 0⟩ ⟨50, 0, -1 / 2⟩) false (.ofOctets 10 1 1 2)
      Sample.env := by
  have hgcm : Sample.env.gcm.Inverts := Sample.gcm_inverts
  refine ((gsMessage_conveys_iff hgcm (Sample.node 0) []).2 _ ?_ ?_).mpr ?_
  · norm_num [Vector3D.Forall, reportedPosition, formation]
  · norm_num [Vector3D.Forall, reportedVelocity, formation, abs_lt]
  · norm_num [Vector3D.Forall, reportedVelocity, formation]

/-- A node that flies west is not advertised as it flies. -/
theorem westbound_not_conveyed : ∃ (god : GodGroundStation) (a : Ipv4Address),
    (reportedPosition god false a).Forall (fun c => 0 ≤ c ∧ c < 2 ^ 32) ∧
    (reportedVelocity god false a).Forall (|·| < 2 ^ 32) ∧
    ∀ outOfRange, ¬ Conveys outOfRange god false a Sample.env := by
  refine ⟨formation ⟨0, 0, 0⟩ ⟨-50, 0, 0⟩, .ofOctets 10 1 1 2, ?_, ?_, fun outOfRange h => ?_⟩
  · norm_num [Vector3D.Forall, reportedPosition, formation]
  · norm_num [Vector3D.Forall, reportedVelocity, formation, abs_lt]
  · have hx := (h.velocity_nonneg (Sample.node 0)).1
    exact absurd hx (by decide +kernel)

end AdvertisedMotion

end SAeroRP
