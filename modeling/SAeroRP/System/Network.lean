import SAeroRP.System.Frame

/-! A ground station and airborne nodes on a network that an adversary controls.
All nodes share the clock. The adversary decides which messages arrive where and
when, and may replay, alter or make them up, with certificates of its own; it
cannot make a signature that verifies under the key of one of the nodes, so data
that carries one was signed by that node before. -/

namespace SAeroRP

open Library

variable {β : Type} [Preorder β] [DecidableLT β] [DecidableEq β] [Zero β]

/-! ### Messages -/

namespace Datagram

/-- The data a request or a reply says it signs, as its receiver assembles it, and
the signature. -/
def signedData (d : Datagram) : Option (Bytes × Block RSA_KEY_SIZE) :=
  match d.request, d.reply with
  | some hdr, _ => some ((setANData hdr.timeStamp hdr.randomNo hdr.identification).toList, hdr.sign)
  | none, some hdr =>
    some ((setGSData hdr.timeStamp hdr.randomNo hdr.oldRandomNo hdr.identification
      hdr.sharedKey).toList, hdr.sign)
  | none, none => none

theorem signedData_of_reply {d : Datagram} {hdr : AuthenticationReplyHeader}
    (h : d.reply = some hdr) :
    d.signedData = some ((setGSData hdr.timeStamp hdr.randomNo hdr.oldRandomNo hdr.identification
      hdr.sharedKey).toList, hdr.sign) := by
  have hrequest : d.request = none := by
    rw [request, if_neg]
    rw [messageType_of_reply h]
    simp
  simp only [signedData, hrequest, h]

end Datagram

/-! ### States -/

/-- The ground station, or an airborne node. -/
inductive Party (ι : Type) where
  | gs
  | an (i : ι)
  deriving DecidableEq

structure Net (ι : Type) where
  now : Time
  nodes : Party ι → Node
  /-- What the nodes have signed so far, with the keys they used. -/
  signed : List (PKey × Bytes) := []

inductive NetEvent (ι : Type) where
  | advance (dt : Time)
  | act (p : Party ι) (e : Event)

namespace Net

variable {ι : Type}

/-- The public key of a node. -/
def publicKey (s : Net ι) (p : Party ι) : Option PKey :=
  (s.nodes p).credentials.map fun c => c.rsaKeyPair.publicKey

/-- A signature on the message that verifies under the key of a node is one the
node made. -/
def Unforged (E : Env β) (s : Net ι) (d : Datagram) : Prop :=
  ∀ data sign, d.signedData = some (data, sign) → ∀ p key, s.publicKey p = some key →
    E.ssl.digestVerifyFinal (some key) data sign = 1 → (key, data) ∈ s.signed

/-- Every node has been started in secure mode, one of them as the ground station. -/
structure Started (s : Net ι) : Prop where
  gs : ∃ (n : Node) (created : Credentials) (generated : Block SHARED_KEY_SIZE),
    s.nodes .gs = n.start created generated ∧
    n.securityState = true ∧ n.isGroundStation = true
  an : ∀ i, ∃ (n : Node) (created : Credentials) (generated : Block SHARED_KEY_SIZE),
    s.nodes (.an i) = n.start created generated ∧
    n.securityState = true ∧ n.isGroundStation = false
  signed : s.signed = []

variable [DecidableEq ι]

/-! ### Steps -/

/-- Time passes for all nodes, or one of them takes a step. -/
inductive Does (E : Env β) (s : Net ι) : NetEvent ι → Net ι → Output → Prop
  | advance {dt : Time}
      (h : ∀ p, Sys.Does E ⟨s.now, s.nodes p⟩ (.advance dt) ⟨s.now + dt, s.nodes p⟩ {}) :
      Does E s (.advance dt) { s with now := s.now + dt } {}
  | act {p : Party ι} {e : Event} {n : Node} {o : Output}
      (h : Sys.Does E ⟨s.now, s.nodes p⟩ e ⟨s.now, n⟩ o)
      (hunforged : ∀ chance d, e = .recv chance d → Unforged E s d) :
      Does E s (.act p e)
        { s with
          nodes := Function.update s.nodes p n
          signed := s.signed ++ Effect.signed o.effects } o

def Step (E : Env β) (x : Transition (Net ι) (NetEvent ι) Output) : Prop :=
  Does E x.pre x.event x.post x.out

/-- Nothing rewrites the configuration of a node. -/
theorem Does.sameConfig {E : Env β} {s t : Net ι} {e : NetEvent ι} {o : Output}
    (h : Does E s e t o) (p : Party ι) : (s.nodes p).SameConfig (t.nodes p) := by
  cases h with
  | advance => exact ⟨rfl, rfl, rfl, rfl, rfl⟩
  | @act q e n o h =>
    by_cases hp : p = q
    · subst hp
      simpa using Sys.Does.sameConfig h
    · simp only [Function.update_of_ne hp]
      exact ⟨rfl, rfl, rfl, rfl, rfl⟩

theorem Does.publicKey {E : Env β} {s t : Net ι} {e : NetEvent ι} {o : Output}
    (h : Does E s e t o) (p : Party ι) : t.publicKey p = s.publicKey p := by
  rw [Net.publicKey, Net.publicKey, (h.sameConfig p).credentials]

end Net

end SAeroRP
