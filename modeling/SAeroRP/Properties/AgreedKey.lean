import SAeroRP.Properties.DataPackets
import SAeroRP.Routing.EncryptionCalls

/-! The shared key of a node in secure mode. The ground station makes one when it is
started; at any node a reply that is accepted leaves one, and a reply that is not revokes
it. RouteOutput encrypts by the size of a packet and does not look at the authentication
status, so it uses a key that has not been agreed on exactly if a packet of one of the
three sizes is routed without authentication. -/

namespace SAeroRP

open Library
open DataPackets (payload payload_size routeOutput_data)

namespace AgreedKey

variable {β : Type}

/-! ### The key agreed on -/

/-- The key there is when a node has been started. -/
def atStart (generated : Block SHARED_KEY_SIZE) (n : Node) : Option (Block SHARED_KEY_SIZE) :=
  if n.isGroundStation then some generated else none

/-- The key after a transition, if `agreed` was the one before. -/
def after (E : Env β) (agreed : Option (Block SHARED_KEY_SIZE))
    (x : Transition Sys Event Output) : Option (Block SHARED_KEY_SIZE) :=
  match x.event with
  | .recv _ d =>
    match d.reply with
    | none => agreed
    | some hdr =>
      match x.pre.node.replyAccepted E x.pre.now hdr with
      | .ok true => some x.post.node.sharedKey
      | _ => none
  | _ => agreed

/-- The shared key of an authenticated node. -/
def held (n : Node) : Option (Block SHARED_KEY_SIZE) :=
  match n.authenticationStatus with
  | .auth => some n.sharedKey
  | .unauth => none

theorem held_of_auth {n : Node} (h : n.authenticationStatus = .auth) :
    held n = some n.sharedKey := by
  rw [held, h]

theorem held_of_sameKeys {n m : Node} (h : n.SameKeys m) : held m = held n := by
  rw [held, held, h.sharedKey, h.authenticationStatus]

theorem held_start {n : Node} (hsecure : n.securityState = true) (created : Credentials)
    (generated : Block SHARED_KEY_SIZE) :
    held (n.start created generated) = atStart generated n := by
  simp only [Node.start, hsecure, if_true, atStart, Node.authenticationIntialize]
  split_ifs <;> rfl

/-- A reply that is processed leaves its key, or revokes it. -/
theorem held_processReply {E : Env β} {now : Time} {n m : Node} {hdr : AuthenticationReplyHeader}
    {es : List Effect} (h : n.processReply E now hdr = .ok (m, es)) :
    held m = match n.replyAccepted E now hdr with
      | .ok true => some m.sharedKey
      | _ => none := by
  obtain ⟨-, ⟨c, k, haccepted, -, -, rfl⟩ | ⟨hrefused, rfl⟩⟩ := Node.processReply_ok h
  · rw [haccepted]
    rfl
  · rw [hrefused]
    rfl

variable [Preorder β] [DecidableLT β] [DecidableEq β] [Zero β]

/-- A node holds the key agreed on, whatever step it takes. -/
theorem after_held {E : Env β} {x : Transition Sys Event Output} (hx : Sys.Step E x) :
    after E (held x.pre.node) x = held x.post.node := by
  obtain ⟨s, e, o, t⟩ := x
  replace hx : Sys.Does E s e t o := hx
  cases e with
  | recv chance d =>
    cases hx with
    | recv h =>
      cases hreply : d.reply with
      | none =>
        simp only [after, hreply]
        exact (held_of_sameKeys (Node.recvAERORP_sameKeys h hreply)).symm
      | some hdr =>
        rw [Node.recvAERORP_of_reply _ _ _ _ _ hreply] at h
        simp only [after, hreply]
        exact (held_processReply h).symm
  | _ => exact (held_of_sameKeys (hx.sameKeys nofun)).symm

/-! ### Calls of Encryption -/

/-- A call of RouteOutput encrypts only in an authenticated node, and under the key agreed
on. -/
def Respects (E : Env β) (agreed : Option (Block SHARED_KEY_SIZE)) (s : Sys) : Event → Prop
  | .routeOutput chance p header _ _ =>
    ∀ c ∈ s.node.encryptionCalls E chance p header,
      s.node.authenticationStatus = .auth ∧ agreed = some c.key
  | _ => True

/-- So do all calls in a run and the call `e` at its end, which need not return. -/
def RespectsThroughout (E : Env β) :
    Option (Block SHARED_KEY_SIZE) → List (Transition Sys Event Output) → Sys → Event → Prop
  | agreed, [], u, e => Respects E agreed u e
  | agreed, x :: tr, u, e =>
    Respects E agreed x.pre x.event ∧ RespectsThroughout E (after E agreed x) tr u e

/-- In secure mode and without authentication no packet has one of the sizes that are
encrypted. -/
def SendsNoEncrypted (s : Sys) : Event → Prop
  | .routeOutput _ p _ _ _ =>
    s.node.securityState = true → s.node.authenticationStatus = .unauth →
      ∀ q, p = some q → q.getSize ∉ Node.encryptedSizes
  | _ => True

omit [Preorder β] [DecidableLT β] [DecidableEq β] [Zero β] in
theorem respects_iff {E : Env β} {s : Sys} {e : Event} :
    Respects E (held s.node) s e ↔ SendsNoEncrypted s e := by
  cases e with
  | routeOutput chance p header oif sockerr =>
    constructor
    · intro hrespects hsecure hunauth q hp hsize
      have hcalls : s.node.encryptionCalls E chance p header ≠ [] :=
        Node.encryptionCalls_ne_nil_iff.mpr ⟨hsecure, q, hp, hsize⟩
      obtain ⟨c, l, hl⟩ := List.exists_cons_of_ne_nil hcalls
      have hauth := (hrespects c (hl ▸ List.mem_cons_self)).1
      rw [hunauth] at hauth
      cases hauth
    · intro hsends c hc
      obtain ⟨hsecure, q, hp, hsize⟩ := Node.encryptionCalls_ne_nil_iff.mp (List.ne_nil_of_mem hc)
      cases hstatus : s.node.authenticationStatus with
      | auth => exact ⟨rfl, by rw [held_of_auth hstatus, Node.key_of_mem_encryptionCalls hc]⟩
      | unauth => exact absurd hsize (hsends hsecure hstatus q hp)
  | _ => exact Iff.rfl

theorem respectsThroughout_iff {E : Env β} {s u : Sys} {tr : List (Transition Sys Event Output)}
    (h : Run (Sys.Step E) s tr u) (e : Event) :
    RespectsThroughout E (held s.node) tr u e ↔
      (∀ x ∈ tr, SendsNoEncrypted x.pre x.event) ∧ SendsNoEncrypted u e := by
  induction h with
  | nil u => simp [RespectsThroughout, respects_iff]
  | @cons s u x tr hpre hstep _ ih =>
    subst hpre
    rw [RespectsThroughout, after_held hstep, ih, respects_iff, List.forall_mem_cons, and_assoc]

/-- From its start on, a node in secure mode encrypts under the key agreed on exactly if it
routes nothing of the sizes that are encrypted while it is not authenticated. -/
theorem uses_agreed_key_iff (E : Env β) (now : Time) (n : Node) (created : Credentials)
    (generated : Block SHARED_KEY_SIZE) (tr : List (Transition Sys Event Output)) (u : Sys)
    (e : Event) (hsecure : n.securityState = true)
    (h : Run (Sys.Step E) ⟨now, n.start created generated⟩ tr u) :
    RespectsThroughout E (atStart generated n) tr u e ↔
      (∀ x ∈ tr, SendsNoEncrypted x.pre x.event) ∧ SendsNoEncrypted u e := by
  rw [← held_start hsecure created generated]
  exact respectsThroughout_iff h e

/-! ### A packet of 1000 bytes -/

/-- Node `k` of the sample before it is started in secure mode. -/
def unstarted (k : UInt8) : Node := { Sample.node k with securityState := true }

def toGroundStation : Ipv4Header := ⟨.ofOctets 10 1 1 2, Ipv4Address.groundStation⟩

def sending : Event :=
  .routeOutput Sample.chance (some payload) toGroundStation none .errorNotError

theorem not_sendsNoEncrypted_sending {s : Sys} (hsecure : s.node.securityState = true)
    (hunauth : s.node.authenticationStatus = .unauth) : ¬ SendsNoEncrypted s sending := by
  intro hsends
  refine hsends hsecure hunauth payload rfl ?_
  rw [payload_size]
  decide

/-- The ground station has its key from the start. -/
theorem uses_agreed_key_iff_sample : ∃ tr u,
    Run (Sys.Step Sample.env) ⟨0, Sample.secureNode 0⟩ tr u ∧
    RespectsThroughout Sample.env (some (Sample.fill _ [1])) tr u sending := by
  let s : Sys := ⟨0, Sample.secureNode 0⟩
  have hstep : Sys.Step Sample.env ⟨s, .advance 1, {}, ⟨1, s.node⟩⟩ := .advance (by decide) nofun
  refine ⟨_, _, Run.single _ hstep, ?_⟩
  refine (uses_agreed_key_iff Sample.env 0 (unstarted 0) (Sample.credentials 0) (Sample.fill _ [1])
    _ _ sending rfl (Run.single _ hstep)).mpr ⟨?_, fun _ hunauth => ?_⟩
  · intro x hx
    obtain rfl := List.mem_singleton.mp hx
    trivial
  · cases hunauth

/-- Node 1 routes the payload to the ground station before any reply has arrived. -/
theorem payload_routed : ∃ r, (Sample.secureNode 1).routeOutput Sample.env 0 Sample.chance
    (some payload) toGroundStation none .errorNotError = .ok r := by
  have hbroadcast : toGroundStation.destination ≠
      ((Sample.secureNode 1).ipv4.address 1).broadcast := by decide
  have hsecure : (Sample.secureNode 1).securityState = true := rfl
  obtain ⟨tag, hroute⟩ := routeOutput_data hsecure (by decide) payload_size Sample.env 0
    Sample.chance toGroundStation none .errorNotError
  rw [Node.routePacket_of_sockets (by decide), if_pos ⟨by decide, by decide⟩, Node.routeAmong,
    if_neg hbroadcast, if_pos ⟨rfl, rfl⟩] at hroute
  exact ⟨_, hroute⟩

/-- It encrypts the payload under the zeros it was made with. -/
theorem sending_disrespects : ¬ ∀ (E : Env ℚ) (now : Time) (n : Node) (created : Credentials)
    (generated : Block SHARED_KEY_SIZE) (tr : List (Transition Sys Event Output)) (u : Sys)
    (e : Event), n.securityState = true →
      Run (Sys.Step E) ⟨now, n.start created generated⟩ tr u →
      RespectsThroughout E (atStart generated n) tr u e := by
  intro h
  obtain ⟨r, hr⟩ := payload_routed
  let s : Sys := ⟨0, Sample.secureNode 1⟩
  have hstep : Sys.Step Sample.env ⟨s, sending, { routed := some r }, { s with node := r.node }⟩ :=
    .routeOutput hr
  have hrespects := h Sample.env 0 (unstarted 1) (Sample.credentials 1) (Sample.fill _ [1]) _ _
    (.advance 0) rfl (Run.single _ hstep)
  have hheld : Respects Sample.env (held s.node) s sending := hrespects.1
  exact not_sendsNoEncrypted_sending rfl rfl (respects_iff.mp hheld)

end AgreedKey

end SAeroRP
