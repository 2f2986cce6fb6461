import SAeroRP.System.Network

/-! The key exchange of a ground station and airborne nodes on a network without an
adversary. A message sent over the authentication interface stays in flight until
it is processed by the node it is addressed to; messages are processed in any
order. -/

namespace SAeroRP

open Library

variable {β : Type}

/-! ### The parties -/

/-- The node ids and the credentials of a ground station and its airborne nodes.
Ids are distinct and fit a byte; the ground station's is 0. -/
structure Roster (ι : Type) where
  id : Party ι → UInt32
  credentials : Party ι → Credentials
  id_gs : id .gs = 0
  id_lt : ∀ p, (id p).toNat < 256
  id_injective : Function.Injective id

namespace Roster

variable {ι : Type} (R : Roster ι)

/-- Addresses on the authentication interface are counted up from the ground
station's. -/
def address (p : Party ι) : Ipv4Address := Ipv4Address.groundStation + R.id p

/-- The node has the id, the address, the credentials and the one socket of a party. -/
structure Has (p : Party ι) (n : Node) : Prop where
  nodeId : n.nodeId = R.id p
  authAddress : n.authAddress = R.address p
  credentials : n.credentials = some (R.credentials p)
  socket : ∃ j, n.authSocketAddresses.toList = [j]

variable {R} in
/-- The key exchange leaves a node the party it is. -/
theorem Has.withKey {p : Party ι} {n : Node} (hn : R.Has p n) (key : Block SHARED_KEY_SIZE)
    (status : AuthenticationStatus) :
    R.Has p { n with sharedKey := key, authenticationStatus := status } :=
  ⟨hn.nodeId, hn.authAddress, hn.credentials, hn.socket⟩

/-- The certificates of the parties have CERT_SIZE bytes and are recognised by all
of them, their signatures verify, and what is encrypted for one it can decrypt. -/
structure Trusted (E : Env β) : Prop where
  length_cert : ∀ p, (E.ssl.i2dX509 (R.credentials p).myCert).length = CERT_SIZE
  parse_cert : ∀ p (b : Block CERT_SIZE), b.toList = E.ssl.i2dX509 (R.credentials p).myCert →
    E.ssl.d2iX509 b = some (R.credentials p).myCert
  pubkey : ∀ p, (R.credentials p).myCert.pubkey = some (R.credentials p).rsaKeyPair.publicKey
  verify_cert : ∀ p q,
    E.ssl.x509VerifyCert (R.credentials p).caCert (some (R.credentials q).myCert) = 1
  verify_sign : ∀ p data, E.ssl.digestVerifyFinal (some (R.credentials p).rsaKeyPair.publicKey) data
    (E.ssl.digestSign (R.credentials p).rsaKeyPair data) = 1
  decrypt : ∀ p padding m, E.ssl.rsaPrivateDecrypt (R.credentials p).rsaKeyPair
    (E.ssl.rsaPublicEncrypt (R.credentials p).rsaKeyPair.publicKey padding m) = some m.toList

theorem toNat_groundStation : Ipv4Address.groundStation.toNat = 3232235777 := by decide

theorem toNat_address (p : Party ι) : (R.address p).toNat = 3232235777 + (R.id p).toNat := by
  have hlt := R.id_lt p
  rw [address, UInt32.toNat_add, toNat_groundStation, Nat.mod_eq_of_lt]
  omega

theorem address_gs : R.address .gs = Ipv4Address.groundStation := by
  rw [address, R.id_gs]
  rfl

theorem address_injective : Function.Injective R.address := by
  intro p q h
  apply R.id_injective
  have hnat := congrArg UInt32.toNat h
  rw [toNat_address, toNat_address] at hnat
  exact UInt32.toNat_inj.mp (by omega)

/-- The identification the ground station computes from an address is the id of
the node that has it. -/
theorem identification (p : Party ι) : (R.address p % 3232235777).toUInt8.toUInt32 = R.id p := by
  have hlt := R.id_lt p
  apply UInt32.toNat_inj.mp
  rw [UInt8.toNat_toUInt32, UInt32.toNat_toUInt8, UInt32.toNat_mod, toNat_address]
  have hconst : (3232235777 : UInt32).toNat = 3232235777 := by decide
  rw [hconst]
  omega

end Roster

/-! ### States -/

/-- A control message on its way to an address. -/
structure Message where
  source : Ipv4Address
  destination : Ipv4Address
  bytes : Bytes
  uid : UInt64
  deriving DecidableEq

def Message.datagram (m : Message) : Datagram := ⟨m.source, ⟨m.bytes, m.uid, false⟩⟩

/-- The messages a node puts on the network, from its authentication interface. -/
def Effect.posted (chance : Chance) (n : Node) (es : List Effect) : List Message :=
  es.filterMap fun
    | sendTo _ bytes destination => some ⟨n.authAddress, destination, bytes, chance.freshUid⟩
    | _ => none

/-- The one socket puts one message on the network. -/
theorem Effect.posted_sendOverAuth (chance : Chance) {n : Node} {j : SocketId × Ipv4InterfaceAddress}
    (hj : n.authSocketAddresses.toList = [j]) (message : Bytes) (destination : Ipv4Address) :
    Effect.posted chance n (n.sendOverAuth message destination) =
      [⟨n.authAddress, destination, message, chance.freshUid⟩] := by
  simp [posted, Node.sendOverAuth, hj]

@[simp] theorem Effect.posted_signData (chance : Chance) (n : Node) (key : PKey) (data : Bytes)
    (es : List Effect) :
    Effect.posted chance n (.signData key data :: es) = Effect.posted chance n es := rfl

structure Handshakes (ι : Type) where
  now : Time
  nodes : Party ι → Node
  inFlight : List Message := []

namespace Handshakes

variable {ι : Type} [DecidableEq ι]

inductive Event (ι : Type) where
  | advance (dt : Time)
  /-- AuthenticationTimer expires at an airborne node. -/
  | request (chance : Chance) (i : ι)
  | deliver (chance : Chance) (p : Party ι) (m : Message)

/-- `Does E s e t es`: in state `s` the event `e` may happen, leads to `t` and puts
out `es`. A message is processed by the node it is addressed to, in the first 5 s. -/
inductive Does (E : Env β) (s : Handshakes ι) : Event ι → Handshakes ι → List Effect → Prop
  | advance {dt : Time} (hdt : 0 ≤ dt) : Does E s (.advance dt) { s with now := s.now + dt } []
  | request {chance : Chance} {i : ι} {es : List Effect}
      (h : (s.nodes (.an i)).sendAuthenticationRequestPacket E s.now chance = .ok es) :
      Does E s (.request chance i)
        { s with inFlight := s.inFlight ++ Effect.posted chance (s.nodes (.an i)) es } es
  | deliver {chance : Chance} {p : Party ι} {m : Message} {n : Node} {es : List Effect}
      (hm : m ∈ s.inFlight) (hp : (s.nodes p).authAddress = m.destination)
      (hnow : s.now ≤ Time.seconds 5)
      (h : (s.nodes p).recvAERORP E s.now chance m.datagram = .ok (n, es)) :
      Does E s (.deliver chance p m)
        { s with
          nodes := Function.update s.nodes p n
          inFlight := s.inFlight.erase m ++ Effect.posted chance n es } es

theorem Does.mem_of_deliver {E : Env β} {s t : Handshakes ι} {chance : Chance} {p : Party ι}
    {m : Message} {es : List Effect} (h : Does E s (.deliver chance p m) t es) :
    m ∈ s.inFlight := by
  cases h with
  | deliver hm => exact hm

theorem Does.nodes_of_deliver {E : Env β} {s t : Handshakes ι} {chance : Chance} {p : Party ι}
    {m : Message} {es : List Effect} (h : Does E s (.deliver chance p m) t es) {q : Party ι}
    (hq : (s.nodes q).authAddress ≠ m.destination) : t.nodes q = s.nodes q := by
  cases h with
  | deliver _ hp =>
    have hne : q ≠ p := fun h => hq (h ▸ hp)
    simp only [Function.update_of_ne hne]

def Step (E : Env β) (x : Transition (Handshakes ι) (Event ι) (List Effect)) : Prop :=
  Does E x.pre x.event x.post x.out

end Handshakes

end SAeroRP
