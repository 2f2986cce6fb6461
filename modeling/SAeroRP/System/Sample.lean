import SAeroRP.Crypto.Sample
import SAeroRP.System.Frame

/-! A ground station and airborne nodes that can be evaluated, with the sample
library. Node `k` has the addresses 10.1.1.(k+1) and 192.168.1.(k+1) and the
public key `k+1`; the time to intercept has the values CalculateTimeToIntercept gives. -/

namespace SAeroRP.Sample

def interface (k : UInt8) : ℕ → Ipv4InterfaceAddress
  | 0 => ⟨Ipv4Address.loopback, .ofOctets 255 0 0 0, .ofOctets 127 255 255 255⟩
  | 1 => ⟨.ofOctets 10 1 1 (k + 1), .ofOctets 255 255 255 0, .ofOctets 10 1 1 255⟩
  | _ => ⟨.ofOctets 192 168 1 (k + 1), .ofOctets 255 255 255 0, .ofOctets 192 168 1 255⟩

def ipv4 (k : UInt8) : Ipv4 where
  nInterfaces := 3
  addresses i := [interface k i]
  isDestinationAddress a i :=
    a = (interface k i).localAddress || a = (interface k i).broadcast

def credentials (k : UInt8) : Credentials where
  caCert := ⟨1, some 0, [42]⟩
  myCert := ⟨k.toNat + 2, some (k.toNat + 1), [42]⟩
  rsaKeyPair := ⟨k.toNat + 1, k.toNat⟩
  myRandomNo := k.toUInt32 + 100

/-- A node before the protocol is started. -/
def node (k : UInt8) : Node where
  ipv4 := ipv4 k
  nodeId := k.toUInt32
  position := ⟨0, 0, 0⟩
  velocity := ⟨0, 0, 0⟩
  socketAddresses := (∅ : Std.ExtTreeMap SocketId Ipv4InterfaceAddress).insert 1 (interface k 1)
  authSocketAddresses := (∅ : Std.ExtTreeMap SocketId Ipv4InterfaceAddress).insert 2 (interface k 2)
  isGroundStation := k = 0
  sharedKey := fill _ []
  authenticationStatus := .unauth
  gcmAadToBeChecked := fill _ []

/-- Node `k` started in secure mode; node 0 is the ground station, with a key of
zeros after a first byte 1. -/
def secureNode (k : UInt8) : Node :=
  { node k with securityState := true }.start (credentials k) (fill _ [1])

/-- What CalculateTimeToIntercept returns for a node at (5, 0, 0) with the velocity
(0, 1, 0) and for one at the origin with the velocity (0, 2, 0): toward (-1, -1, 0) the
second has the less time, toward the origin the first. No other times are compared. -/
def timeToIntercept : TimeToIntercept ℚ := fun dstPosition nodePosition nodeVelocity _ =>
  if nodePosition = ⟨5, 0, 0⟩ ∧ nodeVelocity = ⟨0, 1, 0⟩ then
    if dstPosition = ⟨-1, -1, 0⟩ then -28445.886786789382
    else if dstPosition = ⟨0, 0, 0⟩ then -62032.2047456435
    else 0
  else if nodePosition = ⟨0, 0, 0⟩ ∧ nodeVelocity = ⟨0, 2, 0⟩ then
    if dstPosition = ⟨-1, -1, 0⟩ then -37839.77940117493
    else if dstPosition = ⟨0, 0, 0⟩ then -31021.68181199657
    else 0
  else 0

def env : Env ℚ where
  gcm := gcm
  ssl := ssl
  tti := timeToIntercept

def chance : Chance where
  velocity := ⟨0, 0, 0⟩
  byte _ := 0
  padding := 0
  freshUid := 1000

/-- The start of the protocol changes neither the stack nor the sockets. -/
theorem config_secureNode (k : UInt8) : (secureNode k).ipv4 = ipv4 k ∧
    (secureNode k).authSocketAddresses = (node k).authSocketAddresses := by
  by_cases hk : k = 0 <;>
    simp [secureNode, Node.start, node, Node.authenticationIntialize, Node.setSharedKey, hk]

@[simp] theorem credentials_secureNode (k : UInt8) :
    (secureNode k).credentials = some (credentials k) := by
  by_cases hk : k = 0 <;>
    simp [secureNode, Node.start, node, Node.authenticationIntialize, Node.setSharedKey, hk]

/-- The certificate check looks at the byte of the authority. -/
theorem verifyCert_secureNode (k : UInt8) (b : Block CERT_SIZE) :
    (secureNode k).verifyCert env (env.ssl.d2iX509 b) = .ok (b.toList.getD 2 0 = 42) := by
  simp [Node.verifyCert, env, ssl, credentials]

/-- A message of the given type. -/
def datagram (type : MessageType) (bs : Library.Bytes) : Datagram :=
  ⟨.ofOctets 10 1 1 9, ⟨TypeHeader.serialize ⟨type, true⟩ ++ bs, 7, false⟩⟩

/-- Node 1 before its first event, without security. -/
def initial : Sys := ⟨0, node 1⟩

theorem initial_timely : initial.Timely :=
  ⟨le_rfl, fun a e he => by simp [initial, node] at he,
    fun a e he => by simp [initial, node] at he⟩

end SAeroRP.Sample
