import SAeroRP.Properties.DataPackets
import SAeroRP.Properties.SecureControl
import SAeroRP.System.Sockets

/-! The associated data of secure messages. RouteInput leaves the addresses of a
packet in a member that RecvAERORP reads when it verifies the message in a later
event. Whatever went through RouteInput in between has replaced them, so a message
is verified against the addresses of the last packet, not against its own. -/

namespace SAeroRP.Sockets

open Library

section
variable {β : Type} [Preorder β] [DecidableLT β] [DecidableEq β] [Zero β] {E : Env β}

theorem verifiedWith_eq {n : Node} {d : Datagram} {aad : Block AAD_LENGTH}
    (h : verifiedWith n d = some aad) : aad = n.gcmAadToBeChecked := by
  unfold verifiedWith at h
  split at h
  · split_ifs at h
    cases h
    rfl
  · split_ifs at h
    cases h
    rfl
  · cases h

/-- The step reads the packet from a socket and verifies it with the associated data. -/
def Verifies (x : Transition Sockets Event (List Effect)) (p : Packet) (header : Ipv4Header)
    (aad : Block AAD_LENGTH) : Prop :=
  ∃ chance iif rest, x.event = .read chance iif ∧ x.pre.pending iif = (p, header) :: rest ∧
    verifiedWith x.pre.sys.node (p.datagram header) = some aad

/-- The last packet that went through RouteInput has the addresses of the header. -/
def LastHas (s : Sockets) (header : Ipv4Header) : Prop :=
  ∃ last, s.last = some last ∧ last.source = header.source ∧ last.destination = header.destination

theorem AadOfLast.eq_iff {s : Sockets} (hs : s.AadOfLast) {iif : ℕ} {header : Ipv4Header}
    (hp : s.pending iif ≠ []) :
    s.sys.node.gcmAadToBeChecked = gcmAad header.source header.destination ↔ s.LastHas header := by
  cases hlast : s.last with
  | none => exact absurd (hs.routed hlast iif) hp
  | some last =>
    rw [hs.aad last hlast, gcmAad_inj]
    constructor
    · exact fun h => ⟨last, hlast, h⟩
    · rintro ⟨last', hsome, h⟩
      rw [hlast, Option.some.injEq] at hsome
      subst hsome
      exact h

/-- A message is verified against its own addresses exactly when the last packet
that went through RouteInput has the same ones. -/
theorem verified_against_own_iff {s u : Sockets}
    {tr : List (Transition Sockets Event (List Effect))} (hs : s.Fresh)
    (h : Run (Step E) s tr u) {x : Transition Sockets Event (List Effect)} (hx : x ∈ tr)
    {p : Packet} {header : Ipv4Header} {aad : Block AAD_LENGTH} (hv : Verifies x p header aad) :
    aad = gcmAad header.source header.destination ↔ x.pre.LastHas header := by
  have hinv := (h.invariant aadOfLast_step hs.aadOfLast).2 x hx
  obtain ⟨chance, iif, rest, -, hp, haad⟩ := hv
  rw [verifiedWith_eq haad]
  exact hinv.eq_iff (List.ne_nil_of_mem (hp ▸ List.mem_cons_self))

/-- Under that condition a SECURE_HELLO of a node with the same key is accepted. -/
theorem genuine_hello_accepted (hgcm : E.gcm.Inverts) {s u : Sockets}
    {tr : List (Transition Sockets Event (List Effect))} (hs : s.Fresh)
    (h : Run (Step E) s tr u) {x : Transition Sockets Event (List Effect)} (hx : x ∈ tr)
    {chance chance' : Chance} {iif : ℕ} {p : Packet} {header : Ipv4Header}
    {rest : List (Packet × Ipv4Header)} (he : x.event = .read chance iif)
    (hp : x.pre.pending iif = (p, header) :: rest) {n : Node} {hdr : HelloHeader}
    (hbytes : p.bytes.drop 8 = SecureControl.sealedBytes E chance' n header p.uid .secureHello
      HELLO_PACKET_SIZE hdr.serialize)
    (hsource : header.source = n.myAddress)
    (hauth : x.pre.sys.node.authenticationStatus = .auth)
    (hkey : x.pre.sys.node.sharedKey = n.sharedKey) (hlast : x.pre.LastHas header) :
    ∃ velocity, x.out =
      [.updateRouteToNeighbor header.source (Node.helloPosition hdr) velocity] := by
  have hinv := (h.invariant aadOfLast_step hs.aadOfLast).2 x hx
  have haad := (hinv.eq_iff (List.ne_nil_of_mem (hp ▸ List.mem_cons_self))).mpr hlast
  rw [hsource] at haad
  have hmatches : SecureControl.Matches n x.pre.sys.node header := ⟨hauth, hkey, haad⟩
  have hstep : Does E x.pre x.event x.post x.out := h.step_of_mem x hx
  rw [he] at hstep
  obtain ⟨p', header', rest', node, hp', hrecv⟩ := hstep.of_read
  rw [hp] at hp'
  cases hp'
  rw [SecureControl.recvAERORP_sealedHello chance _ hgcm hmatches rfl hbytes] at hrecv
  have hout := congrArg Prod.snd (Except.ok.inj hrecv)
  exact ⟨_, hout.symm⟩

end

/-! ### Two messages in flight -/

def env : Env ℚ := { Sample.env with gcm := Sample.bindingGcm }

/-- Nodes 1 and 2 of the sample, with the ground station's key. -/
def neighbour (k : UInt8) : Node := { Sample.secureNode k with sharedKey := Sample.fill _ [1] }

def helloFrom (k : UInt8) : Ipv4Header := ⟨(neighbour k).myAddress, .ofOctets 10 1 1 255⟩

/-- The SECURE_HELLO of node `k`, with its UDP header. -/
def secureHello (k : UInt8) : Packet :=
  ⟨[2, 154, 2, 154, 0, 50, 0, 0] ++ SecureControl.sealedBytes env Sample.chance (neighbour k)
    (helloFrom k) k.toUInt64 .secureHello HELLO_PACKET_SIZE
    ((neighbour k).helloHeader fun _ => 0).serialize, k.toUInt64, false⟩

/-- The ground station before anything has arrived. -/
def groundStation : Sockets := ⟨⟨0, Sample.secureNode 0⟩, fun _ => [], none⟩

/-- The state after a control message for the node has come in. -/
def deliver (s : Sockets) (p : Packet) (header : Ipv4Header) (iif : ℕ) : Sockets where
  sys := { s.sys with
    node := { s.sys.node with
      gcmAadToBeChecked := gcmAad header.source header.destination } }
  pending := Function.update s.pending iif (s.pending iif ++ [(p, header)])
  last := some header

theorem does_deliver {β : Type} [Preorder β] [DecidableLT β] [DecidableEq β] [Zero β] (E : Env β)
    (s : Sockets) (chance : Chance) {p : Packet} {header : Ipv4Header} {iif : ℕ}
    (hlocal : DataPackets.LocallyDestined p header iif s.sys.node) (hc : IsControl p)
    (ucb lcb ecb : Callback) :
    Does E s (.arrive chance p header iif ucb lcb ecb) (s.deliver p header iif)
      [.lcb lcb p header iif] := by
  have h : Does E s (.arrive chance p header iif ucb lcb ecb) _ _ :=
    .arrive (DataPackets.routeInput_of_locallyDestined hlocal E s.sys.now chance ucb lcb ecb)
  rwa [if_pos ⟨hc, List.mem_cons_self⟩] at h

/-- The messages of nodes 1 and 2 both go through RouteInput before the first is
read. -/
theorem two_in_flight :
    ∃ tr u, Run (Step env) groundStation tr u ∧ ∃ x ∈ tr,
      Verifies x (secureHello 1) (helloFrom 1)
        (gcmAad (helloFrom 2).source (helloFrom 2).destination) ∧ x.out = [] := by
  let s₁ := groundStation.deliver (secureHello 1) (helloFrom 1) 1
  let s₂ := s₁.deliver (secureHello 2) (helloFrom 2) 1
  have h₁ : Does env groundStation
      (.arrive Sample.chance (secureHello 1) (helloFrom 1) 1 0 0 0) s₁ _ :=
    does_deliver env groundStation Sample.chance
      ⟨by decide, by simp [secureHello], by decide⟩ (by decide) 0 0 0
  have h₂ : Does env s₁ (.arrive Sample.chance (secureHello 2) (helloFrom 2) 1 0 0 0) s₂ _ :=
    does_deliver env s₁ Sample.chance ⟨by decide, by simp [secureHello], by decide⟩ (by decide) 0 0 0
  obtain ⟨⟨node, es⟩, hrecv, hes⟩ : ∃ r, s₂.sys.node.recvAERORP env s₂.sys.now Sample.chance
      ((secureHello 1).datagram (helloFrom 1)) = .ok r ∧ r.2.isEmpty = true :=
    exists_of_any (by decide +kernel)
  have hp : s₂.pending 1 =
      [(secureHello 1, helloFrom 1), (secureHello 2, helloFrom 2)] := by
    simp [s₂, s₁, deliver, groundStation]
  have hverified : verifiedWith s₂.sys.node ((secureHello 1).datagram (helloFrom 1)) =
      some (gcmAad (helloFrom 2).source (helloFrom 2).destination) := by decide +kernel
  refine ⟨_, _, h₁.run.append (h₂.run.append (Does.read hp hrecv).run), _,
    List.mem_append_right _ (List.mem_append_right _ (List.mem_singleton_self _)),
    ⟨Sample.chance, 1, _, rfl, hp, hverified⟩, ?_⟩
  simpa using hes

theorem groundStation_fresh : groundStation.Fresh := ⟨rfl, fun _ => rfl⟩

theorem verified_against_own_iff_sample :
    ∃ tr u, Run (Step env) groundStation tr u ∧ ∃ x ∈ tr, ∃ aad,
      Verifies x (secureHello 1) (helloFrom 1) aad ∧
        (aad = gcmAad (helloFrom 1).source (helloFrom 1).destination ↔
          x.pre.LastHas (helloFrom 1)) := by
  obtain ⟨tr, u, h, x, hx, hv, -⟩ := two_in_flight
  exact ⟨tr, u, h, x, hx, _, hv, verified_against_own_iff groundStation_fresh h hx hv⟩

/-- The message of node 1, which its own addresses would verify, is verified against
those of node 2 and rejected. -/
theorem verified_against_other :
    env.gcm.Inverts ∧ groundStation.Fresh ∧
      ∃ tr u, Run (Step env) groundStation tr u ∧ ∃ x ∈ tr, ∃ aad,
        Verifies x (secureHello 1) (helloFrom 1) aad ∧
          aad ≠ gcmAad (helloFrom 1).source (helloFrom 1).destination ∧ x.out = [] := by
  obtain ⟨tr, u, h, x, hx, hv, hout⟩ := two_in_flight
  exact ⟨Sample.bindingGcm_inverts, groundStation_fresh, tr, u, h, x, hx, _, hv,
    by decide +kernel, hout⟩

end SAeroRP.Sockets
