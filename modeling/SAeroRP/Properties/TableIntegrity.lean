import SAeroRP.System.Sample

/-! Who writes the tables of a node in secure mode. The branches of the two secure
messages verify a tag before they update a table. The branches of the plain HELLO
and GSGEOLOCATION messages stay open to an authenticated node, since the early
gate only stops them while the node is unauthenticated. -/

namespace SAeroRP.TableIntegrity

open Library Node

variable {β : Type}

/-- The message is a secure one whose tag verifies under the shared key. -/
def Verified (E : Env β) (chance : Chance) (d : Datagram) (n : Node) : Prop :=
  d.messageType = some .secureHello ∧
      (n.secureCheck E chance HELLO_PACKET_SIZE d.body.packet).1 = 1 ∨
    d.messageType = some .secureGSGeoLocation ∧
      (n.secureCheck E chance GS_PACKET_SIZE d.body.packet).1 = 1

/-- The message is a HELLO or GSGEOLOCATION in the clear. -/
def IsPlain (d : Datagram) : Prop :=
  d.messageType = some .hello ∨ d.messageType = some .gsGeoLocation

/-! ### One message -/

section
variable {E : Env β} {now : Time} {chance : Chance} {d : Datagram} {n m : Node} {es : List Effect}

/-- Updates are made, or the tables stay as they were. -/
def Updates (n m : Node) (es : List Effect) : Prop :=
  (∃ e ∈ es, e.IsUpdate) ∨ m.neighbors ≠ n.neighbors ∨ m.nodesPosition ≠ n.nodesPosition

theorem not_updates_of_same (hes : ∀ e ∈ es, ¬ e.IsUpdate) (hn : m.neighbors = n.neighbors)
    (hp : m.nodesPosition = n.nodesPosition) : ¬ Updates n m es := by
  rintro (⟨e, he, hu⟩ | h | h)
  · exact hes e he hu
  · exact h hn
  · exact h hp

theorem processRequest_not_updates {sender : Ipv4Address} {hdr : AuthenticationRequestHeader}
    (h : n.processRequest E now chance sender hdr = .ok (m, es)) : ¬ Updates n m es := by
  obtain ⟨rfl, hes | ⟨identification, key, -, -, hsend⟩⟩ := processRequest_ok h
  · exact not_updates_of_same (by simp [hes]) rfl rfl
  · obtain ⟨c, message, -, rfl⟩ := sendAuthenticationReplyPacket_ok hsend
    refine not_updates_of_same (fun e he => ?_) rfl rfl
    rcases List.mem_cons.mp he with rfl | he
    · exact id
    · obtain ⟨j, -, rfl⟩ := List.mem_map.mp he
      exact id

theorem processReply_not_updates {hdr : AuthenticationReplyHeader}
    (h : n.processReply E now hdr = .ok (m, es)) : ¬ Updates n m es := by
  obtain ⟨rfl, ⟨c, k, -, -, hk, rfl⟩ | ⟨-, rfl⟩⟩ := processReply_ok h
  · obtain ⟨key, rfl⟩ := decryptSharedKey_ok hk
    exact not_updates_of_same (by simp) rfl rfl
  · exact not_updates_of_same (by simp) rfl rfl

theorem processSecureHello_updates {checked : ℤ × Block HELLO_PACKET_SIZE}
    (h : n.processSecureHello now chance d checked = .ok (m, es)) (hu : Updates n m es) :
    checked.1 = 1 := by
  by_contra hcheck
  rw [processSecureHello, if_pos hcheck] at h
  cases h
  exact not_updates_of_same (by simp) rfl rfl hu

theorem processSecureGSGeoLocation_updates {checked : ℤ × Block GS_PACKET_SIZE}
    (h : n.processSecureGSGeoLocation now d checked = .ok (m, es)) (hu : Updates n m es) :
    checked.1 = 1 := by
  by_contra hcheck
  rw [processSecureGSGeoLocation, if_pos hcheck] at h
  cases h
  exact not_updates_of_same (by simp) rfl rfl hu

theorem plain_updates (h : n.recvMessage E now chance .hello d = .ok (m, es) ∨
    n.recvMessage E now chance .gsGeoLocation d = .ok (m, es)) : Updates n m es := by
  rcases h with h | h
  · obtain ⟨⟨hdr, rest⟩, -, h⟩ := bind_eq_ok.mp h
    cases h
    exact .inl ⟨_, List.mem_cons_self, trivial⟩
  · obtain ⟨⟨hdr, rest⟩, -, h⟩ := bind_eq_ok.mp h
    cases h
    exact .inl ⟨_, List.mem_cons_self, trivial⟩

theorem auth_of_not_ignores {type : MessageType} (hs : n.securityState = true)
    (hc : CarriesPosition type) (h : ¬ n.Ignores type) : n.authenticationStatus = .auth := by
  cases hstatus : n.authenticationStatus with
  | auth => rfl
  | unauth => exact absurd ⟨hstatus, hs, hc⟩ h

/-- A call that updates tables does so for a verified message, unless a plain
message reached an authenticated node. -/
theorem recvAERORP_updates (hs : n.securityState = true)
    (h : n.recvAERORP E now chance d = .ok (m, es)) (hu : Updates n m es)
    (hplain : ¬ (IsPlain d ∧ n.authenticationStatus = .auth)) :
    n.authenticationStatus = .auth ∧ Verified E chance d n := by
  rcases recvAERORP_ok h with ⟨rfl, rfl⟩ | ⟨type, ht, hgate, h⟩
  · exact absurd hu (not_updates_of_same (by simp) rfl rfl)
  cases type with
  | hello =>
    have hauth := auth_of_not_ignores hs (.inl rfl) hgate
    exact absurd ⟨.inl ht, hauth⟩ hplain
  | gsGeoLocation =>
    have hauth := auth_of_not_ignores hs (.inr (.inl rfl)) hgate
    exact absurd ⟨.inr ht, hauth⟩ hplain
  | gsTopology =>
    cases h
    exact absurd hu (not_updates_of_same (by simp) rfl rfl)
  | authenticationRequest =>
    obtain ⟨⟨hdr, rest⟩, -, h⟩ := bind_eq_ok.mp h
    exact absurd hu (processRequest_not_updates h)
  | authenticationReply =>
    obtain ⟨⟨hdr, rest⟩, -, h⟩ := bind_eq_ok.mp h
    exact absurd hu (processReply_not_updates h)
  | secureHello =>
    obtain ⟨_, -, h⟩ := bind_eq_ok.mp h
    exact ⟨auth_of_not_ignores hs (.inr (.inr (.inl rfl))) hgate,
      .inl ⟨ht, processSecureHello_updates h hu⟩⟩
  | secureGSGeoLocation =>
    obtain ⟨_, -, h⟩ := bind_eq_ok.mp h
    exact ⟨auth_of_not_ignores hs (.inr (.inr (.inr rfl))) hgate,
      .inr ⟨ht, processSecureGSGeoLocation_updates h hu⟩⟩

/-- A plain message that reaches an authenticated node updates a table. -/
theorem recvAERORP_plain (h : n.recvAERORP E now chance d = .ok (m, es)) (hplain : IsPlain d)
    (hauth : n.authenticationStatus = .auth) : Updates n m es ∧ ¬ Verified E chance d n := by
  have hgate : ∀ type, ¬ n.Ignores type := fun type hi => by
    rw [Ignores, hauth] at hi
    cases hi.1
  rcases hplain with ht | ht
  · rw [recvAERORP_of_type E now chance d n ht, if_neg (hgate _)] at h
    refine ⟨plain_updates (.inl h), ?_⟩
    rintro (⟨ht', -⟩ | ⟨ht', -⟩) <;> rw [ht] at ht' <;> cases ht'
  · rw [recvAERORP_of_type E now chance d n ht, if_neg (hgate _)] at h
    refine ⟨plain_updates (.inr h), ?_⟩
    rintro (⟨ht', -⟩ | ⟨ht', -⟩) <;> rw [ht] at ht' <;> cases ht'

end

/-! ### Runs -/

section
variable [Preorder β] [DecidableLT β] [DecidableEq β] [Zero β]

/-- If a message updates a table, by a call or otherwise, then the node was
authenticated and the message is a secure one that verified. -/
def Integrity (E : Env β) (x : Transition Sys Event Output) : Prop :=
  ∀ chance d, x.event = .recv chance d → Updates x.pre.node x.post.node x.out.effects →
    x.pre.node.authenticationStatus = .auth ∧ Verified E chance d x.pre.node

/-- A plain message arrives at the authenticated node. -/
def PlainWhileAuth (x : Transition Sys Event Output) : Prop :=
  ∃ chance d, x.event = .recv chance d ∧ IsPlain d ∧ x.pre.node.authenticationStatus = .auth

theorem integrity_iff {E : Env β} {x : Transition Sys Event Output} (hx : Sys.Step E x)
    (hs : x.pre.node.securityState = true) : Integrity E x ↔ ¬ PlainWhileAuth x := by
  obtain ⟨s, e, o, t⟩ := x
  have hdoes : Sys.Does E s e t o := hx
  constructor
  · rintro hi ⟨chance, d, he, hplain, hauth⟩
    cases he
    cases hdoes with
    | recv h =>
      obtain ⟨hu, hnot⟩ := recvAERORP_plain h hplain hauth
      exact hnot (hi chance d rfl hu).2
  · rintro hnot chance d he hu
    cases he
    cases hdoes with
    | recv h =>
      exact recvAERORP_updates hs h hu fun hp => hnot ⟨chance, d, rfl, hp.1, hp.2⟩

/-- Along a run of a node in secure mode, the tables are updated as they should be
except by the plain messages that arrive while the node is authenticated. -/
theorem integrity_run_iff (E : Env β) (s u : Sys) (tr : List (Transition Sys Event Output))
    (hrun : Run (Sys.Step E) s tr u) (hs : s.node.securityState = true) :
    ∀ x ∈ tr, Integrity E x ↔ ¬ PlainWhileAuth x :=
  hrun.forall_transition (I := fun s => s.node.securityState = true) Sys.step_securityState
    (fun _ hx hsec => integrity_iff hx hsec) hs

end

/-! ### A HELLO in the clear -/

/-- The ground station of the sample receives a HELLO of zeros. -/
def helloStep : Transition Sys Event Output where
  pre := ⟨0, Sample.secureNode 0⟩
  event := .recv Sample.chance (Sample.datagram .hello (List.replicate 25 0))
  out := { effects := [.updateRouteToNeighbor (.ofOctets 10 1 1 9) ⟨0, 0, 0⟩ ⟨0, 0, 0⟩] }
  post := ⟨0, (Sample.secureNode 0).updateRouteToNeighbor 0 (.ofOctets 10 1 1 9) ⟨0, 0, 0⟩ ⟨0, 0, 0⟩
    |>.1⟩

theorem helloStep_step : Sys.Step Sample.env helloStep := by
  refine .recv ?_
  have ht : (Sample.datagram .hello (List.replicate 25 0)).messageType = some .hello :=
    Datagram.messageType_of_bytes rfl
  have hgate : ¬ (Sample.secureNode 0).Ignores .hello := by decide
  rw [helloStep, recvAERORP_of_type _ _ _ _ _ ht, if_neg hgate]
  rfl

theorem helloStep_plain : PlainWhileAuth helloStep :=
  ⟨_, _, rfl, .inl (Datagram.messageType_of_bytes rfl), by decide⟩

theorem integrity_run_iff_sample : Integrity Sample.env helloStep ↔ ¬ PlainWhileAuth helloStep :=
  integrity_run_iff Sample.env _ _ _ (Run.single _ helloStep_step) (by decide) _ List.mem_cons_self

/-- A HELLO in the clear makes the ground station list its sender as a neighbour. -/
theorem hello_breaks_integrity :
    ¬ ∀ (E : Env ℚ), E.gcm.Inverts → ∀ (s u : Sys) (tr : List (Transition Sys Event Output)),
      Run (Sys.Step E) s tr u → s.node.securityState = true → ∀ x ∈ tr, Integrity E x := by
  intro h
  have hintegrity := h Sample.env Sample.gcm_inverts _ _ _ (Run.single _ helloStep_step)
    (by decide) _ List.mem_cons_self
  exact (integrity_iff helloStep_step (by decide)).mp hintegrity helloStep_plain

end SAeroRP.TableIntegrity
