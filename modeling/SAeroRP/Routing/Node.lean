import SAeroRP.Crypto.OpenSsl
import SAeroRP.Tables.NeighborTable
import SAeroRP.Tables.NodesPositionTable
import SAeroRP.Tables.RequestQueue

/-! The state of one node that runs the protocol, and what its calls put out. The
fields are the members of the protocol object that a modelled function reads or
writes, with the node's mobility model and IP stack. The members the key exchange
creates are absent until the protocol has been started in secure mode. -/

namespace SAeroRP

open Library

/-! ### Effects -/

/-- What a call does besides changing the node. -/
inductive Effect where
  | updateRouteToNeighbor (sender : Ipv4Address) (position velocity : Vector3D)
  | updateRouteToNodes (node : Ipv4Address) (position velocity : Vector3D)
  | sendTo (socket : SocketId) (packet : Bytes) (destination : Ipv4Address)
  /-- The data was signed with the private half of the key. -/
  | signData (key : PKey) (data : Bytes)
  | ucb (callback : Callback) (route : Ipv4Route) (packet : Packet) (header : Ipv4Header)
  | lcb (callback : Callback) (packet : Packet) (header : Ipv4Header) (iif : ℕ)
  | ecb (callback : Callback) (packet : Packet) (header : Ipv4Header) (sockerr : SocketErrno)
  deriving DecidableEq

namespace Effect

/-- The gateways packets were handed out to. -/
def gateways (es : List Effect) : List Ipv4Address :=
  es.filterMap fun
    | ucb _ route _ _ => some route.gateway
    | _ => none

/-- The data signed with a key. -/
def signed (es : List Effect) : List (PKey × Bytes) :=
  es.filterMap fun
    | signData key data => some (key, data)
    | _ => none

/-- A call of one of the two functions that write the tables. -/
def IsUpdate : Effect → Prop
  | updateRouteToNeighbor .. => True
  | updateRouteToNodes .. => True
  | _ => False

/-- Dropped packets go to their error callbacks. -/
def ofDropped (dropped : List QueueEntry) : List Effect :=
  dropped.map fun e => ecb e.ecb e.packet e.header .errorNoRouteToHost

@[simp] theorem gateways_nil : gateways [] = [] := rfl

@[simp] theorem gateways_signData (key : PKey) (data : Bytes) (es : List Effect) :
    gateways (signData key data :: es) = gateways es := rfl

@[simp] theorem gateways_append (es es' : List Effect) :
    gateways (es ++ es') = gateways es ++ gateways es' := List.filterMap_append

@[simp] theorem signed_nil : signed [] = [] := rfl

@[simp] theorem signed_signData (key : PKey) (data : Bytes) (es : List Effect) :
    signed (signData key data :: es) = (key, data) :: signed es := rfl

@[simp] theorem signed_ucb (callback : Callback) (route : Ipv4Route) (packet : Packet)
    (header : Ipv4Header) (es : List Effect) :
    signed (ucb callback route packet header :: es) = signed es := rfl

@[simp] theorem signed_append (es es' : List Effect) :
    signed (es ++ es') = signed es ++ signed es' := List.filterMap_append

@[simp] theorem gateways_ofDropped (dropped : List QueueEntry) :
    gateways (ofDropped dropped) = [] := by
  simp [gateways, ofDropped, List.filterMap_map]

@[simp] theorem signed_ofDropped (dropped : List QueueEntry) :
    signed (ofDropped dropped) = [] := by
  simp [signed, ofDropped, List.filterMap_map]

end Effect

/-! ### State -/

/-- STATE. -/
inductive AuthenticationStatus where
  | unauth
  | auth
  deriving DecidableEq, Repr

/-- What AuthenticationIntialize creates: the certificate of the authority, the
node's own certificate and key pair, and its random number. -/
structure Credentials where
  caCert : X509
  myCert : X509
  rsaKeyPair : Rsa
  myRandomNo : UInt32

structure Node where
  ipv4 : Ipv4
  nodeId : UInt32
  position : Vector3D
  velocity : Vector3D
  socketAddresses : Std.ExtTreeMap SocketId Ipv4InterfaceAddress
  authSocketAddresses : Std.ExtTreeMap SocketId Ipv4InterfaceAddress
  queue : RequestQueue := {}
  nodesPosition : NodesPositionTable := {}
  neighbors : NeighborTable := {}
  queuedAddresses : List Ipv4Address := []
  /-- The time CheckQueueTimer expires at, while it runs. -/
  checkQueueTimer : Option Time := none
  isGroundStation : Bool := false
  securityState : Bool := false
  credentials : Option Credentials := none
  sharedKey : Block SHARED_KEY_SIZE
  authenticationStatus : AuthenticationStatus
  gcmAadToBeChecked : Block AAD_LENGTH

/-- The libraries a node calls, and the valuation of CalculateTimeToIntercept. -/
structure Env (β : Type) where
  gcm : EvpGcm
  ssl : OpenSsl
  tti : TimeToIntercept β

namespace Node

/-- Local address of the data interface. -/
def myAddress (n : Node) : Ipv4Address := (n.ipv4.address 1).localAddress

/-- Local address of the authentication interface. -/
def authAddress (n : Node) : Ipv4Address := (n.ipv4.address 2).localAddress

def isMyOwnAddress (n : Node) (src : Ipv4Address) : Bool :=
  n.socketAddresses.toList.any fun j => src = j.2.localAddress

/-! ### Start -/

def authenticationIntialize (created : Credentials) (n : Node) : Node :=
  { n with credentials := some created, authenticationStatus := .unauth }

def setSharedKey (generated : Block SHARED_KEY_SIZE) (n : Node) : Node :=
  { n with sharedKey := generated }

/-- Start, with the credentials and the key its library calls create. -/
def start (created : Credentials) (generated : Block SHARED_KEY_SIZE) (n : Node) : Node :=
  let n :=
    if n.securityState then
      let n := n.authenticationIntialize created
      if n.isGroundStation then { n.setSharedKey generated with authenticationStatus := .auth }
      else n
    else n
  { n with queuedAddresses := [] }

end Node

/-! ### Associated data and initialisation vectors -/

/-- The source address, then the destination address. -/
def gcmAad (src dst : Ipv4Address) : Block AAD_LENGTH :=
  ⟨src.serialize ++ dst.serialize, by simp [AAD_LENGTH]⟩

/-- The packet uid in memory order, then the bytes 8 to 15. -/
def gcmIv (uid : UInt64) : Block IV_LENGTH :=
  ⟨Wire.writeU64 uid ++ [8, 9, 10, 11, 12, 13, 14, 15], by simp [IV_LENGTH]⟩

theorem gcmAad_inj {src dst src' dst' : Ipv4Address} :
    gcmAad src dst = gcmAad src' dst' ↔ src = src' ∧ dst = dst' := by
  constructor
  · intro h
    have hbytes : src.serialize ++ dst.serialize = src'.serialize ++ dst'.serialize :=
      congrArg Subtype.val h
    obtain ⟨hsrc, hdst⟩ := List.append_inj hbytes (by simp)
    exact ⟨Ipv4Address.serialize_injective hsrc, Ipv4Address.serialize_injective hdst⟩
  · rintro ⟨rfl, rfl⟩
    rfl

theorem gcmIv_injective : Function.Injective gcmIv := by
  intro a b h
  have hbytes : Wire.writeU64 a = Wire.writeU64 b :=
    List.append_cancel_right (congrArg Subtype.val h)
  have hvalue := congrArg leValue hbytes
  rwa [Wire.writeU64, Wire.writeU64, leValue_leBytes_of_lt a.toNat_lt,
    leValue_leBytes_of_lt b.toNat_lt, UInt64.toNat_inj] at hvalue

end SAeroRP
