import SAeroRP.Packet.Codec
import SAeroRP.System.Sample
import SAeroRP.Tables.Lookups

/-! Malformed control messages. A call of RecvAERORP is harmless if it comes back, takes no
null key out of a certificate, does what it does whatever the undetermined values are, and
updates its tables without reading through the end iterator. It is so exactly if the message
has the bytes its type demands, the fields that are decoded without a check hold what the code
expects of them, and the table that is updated has an entry to replace. -/

namespace SAeroRP

open Library

variable {β : Type}

/-! ### What a call depends on -/

instance : Inhabited Chance := ⟨⟨⟨0, 0, 0⟩, fun _ => 0, 0, 0⟩⟩

/-- What a call does is settled without the undetermined values. Only its effects may
depend on the padding an answer is encrypted with. -/
def Determined (f : Chance → Except Fault (Node × List Effect)) : Prop :=
  ∃ m, ∀ padding, ∃ es, ∀ chance : Chance, chance.padding = padding → f chance = .ok (m, es)

namespace Determined

variable {f : Chance → Except Fault (Node × List Effect)}

theorem const (q : Node × List Effect) : Determined fun _ => .ok q :=
  ⟨q.1, fun _ => ⟨q.2, fun _ _ => rfl⟩⟩

end Determined

namespace Node

variable {E : Env β}

section
variable {now : Time} {d : Datagram} {n : Node}

end

/-! ### Authentication -/

/-- What RecvAERORP expects of a request: a certificate with a key, and to be able to check
and answer it. -/
def Answerable (E : Env β) (now : Time) (hdr : AuthenticationRequestHeader) (n : Node) : Prop :=
  (E.ssl.d2iX509 hdr.certificate).bind X509.pubkey ≠ none ∧
    ∃ c, n.credentials = some c ∧ (n.requestValid E now hdr = .ok true →
      n.authSocketAddresses.toList = [] ∨ CERT_SIZE ≤ (E.ssl.i2dX509 c.myCert).length)

section
variable {now : Time} {d : Datagram} {n : Node} {type : MessageType}

end

end Node

end SAeroRP
