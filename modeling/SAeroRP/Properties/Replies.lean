import SAeroRP.System.Sample

/-! Replies that fail a check. Such a reply leaves the shared key and both tables
alone, and the `else` branch makes the node unauthenticated, the ground station
like any other node. A run of such replies leaves no other trace. -/

namespace SAeroRP.Replies

open Library Node

variable {β : Type}

/-- The message is a reply that fails CheckPacketValidity or VerifyRandomNo. -/
def Fails (E : Env β) (now : Time) (n : Node) (d : Datagram) : Prop :=
  ∃ hdr, d.reply = some hdr ∧ n.replyAccepted E now hdr = .ok false

theorem recvAERORP_of_fails {E : Env β} {now : Time} {n : Node} {d : Datagram}
    (h : Fails E now n d) (chance : Chance) :
    n.recvAERORP E now chance d = .ok ({ n with authenticationStatus := .unauth }, []) := by
  obtain ⟨hdr, hd, hfail⟩ := h
  rw [recvAERORP_of_reply E now chance d n hd, processReply, hfail]
  rfl

section
variable [Preorder β] [DecidableLT β] [DecidableEq β] [Zero β]

/-- Time passes, or a failing reply arrives. -/
def FailingOrIdle (E : Env β) (x : Transition Sys Event Output) : Prop :=
  (∃ dt, x.event = .advance dt) ∨
    ∃ chance d, x.event = .recv chance d ∧ Fails E x.pre.now x.pre.node d

/-- A failing reply arrives. -/
def Failing (x : Transition Sys Event Output) : Prop := ∃ chance d, x.event = .recv chance d

theorem node_of_fails {E : Env β} {s t : Sys} {o : Output} {chance : Chance} {d : Datagram}
    (hfail : Fails E s.now s.node d) (h : Sys.Does E s (.recv chance d) t o) :
    t.node = { s.node with authenticationStatus := .unauth } := by
  cases h with
  | recv h =>
    rw [recvAERORP_of_fails hfail] at h
    cases h
    rfl

theorem failingOrIdle_step {E : Env β} {x : Transition Sys Event Output} (hstep : Sys.Step E x)
    (hx : FailingOrIdle E x) :
    x.post.node = x.pre.node ∧ ¬ Failing x ∨
      x.post.node = { x.pre.node with authenticationStatus := .unauth } ∧ Failing x := by
  unfold Sys.Step at hstep
  rcases hx with ⟨dt, he⟩ | ⟨chance, d, he, hfail⟩
  · rw [he] at hstep
    refine .inl ⟨?_, by simp [Failing, he]⟩
    generalize x.post = t, x.out = o at hstep
    cases hstep
    rfl
  · rw [he] at hstep
    exact .inr ⟨node_of_fails hfail hstep, chance, d, he⟩

/-- A run of failing replies, in which time passes. -/
theorem failing_run {E : Env β} {s u : Sys} {tr : List (Transition Sys Event Output)}
    (hrun : Run (Sys.Step E) s tr u) (htr : ∀ x ∈ tr, FailingOrIdle E x) :
    u.node = s.node ∧ (∀ x ∈ tr, ¬ Failing x) ∨
      u.node = { s.node with authenticationStatus := .unauth } ∧ ∃ x ∈ tr, Failing x := by
  induction hrun with
  | nil => exact .inl ⟨rfl, by simp⟩
  | @cons s u x tr hpre hstep _ ih =>
    subst hpre
    have hx := failingOrIdle_step hstep (htr x List.mem_cons_self)
    have htail := ih fun y hy => htr y (List.mem_cons_of_mem _ hy)
    rcases hx with ⟨hnode, hnot⟩ | ⟨hnode, hyes⟩ <;>
      rcases htail with ⟨hend, hnone⟩ | ⟨hend, y, hy, hf⟩
    · left
      refine ⟨hend.trans hnode, fun z hz => ?_⟩
      rcases List.mem_cons.mp hz with rfl | hz
      · exact hnot
      · exact hnone z hz
    · right
      exact ⟨by rw [hend, hnode], y, List.mem_cons_of_mem _ hy, hf⟩
    · right
      exact ⟨hend.trans hnode, x, List.mem_cons_self, hyes⟩
    · right
      exact ⟨by rw [hend, hnode], x, List.mem_cons_self, hyes⟩

/-- A failing reply makes the node unauthenticated and changes nothing else, and
so does any run of failing replies with at least one reply. -/
theorem failing_replies (E : Env β) :
    (∀ now n d chance, Fails E now n d →
      n.recvAERORP E now chance d = .ok ({ n with authenticationStatus := .unauth }, [])) ∧
    ∀ s tr u, Run (Sys.Step E) s tr u → (∀ x ∈ tr, FailingOrIdle E x) → (∃ x ∈ tr, Failing x) →
      u.node = { s.node with authenticationStatus := .unauth } := by
  refine ⟨fun now n d chance h => recvAERORP_of_fails h chance, ?_⟩
  rintro s tr u hrun htr ⟨x, hx, hf⟩
  rcases failing_run hrun htr with ⟨-, hnone⟩ | ⟨hend, -⟩
  · exact absurd hf (hnone x hx)
  · exact hend

end

/-! ### A reply with a zero signature -/

/-- A reply for node 0 that nobody signed. -/
def forged : AuthenticationReplyHeader :=
  ⟨Sample.fill _ [], 0, 0, 0, 0, Sample.fill _ [], Sample.fill _ []⟩

def forgedDatagram : Datagram := Sample.datagram .authenticationReply forged.serialize

theorem forged_fails : Fails Sample.env 0 (Sample.secureNode 0) forgedDatagram := by
  refine ⟨forged, Datagram.reply_of_bytes rfl, ?_⟩
  have hcert : (Sample.secureNode 0).verifyCert Sample.env
      (Sample.env.ssl.d2iX509 forged.certificate) = .ok false := by
    rw [Sample.verifyCert_secureNode, forged, Sample.getD_fill (by decide)]
    rfl
  rw [replyAccepted, replyValid, checkPacketValidity, hcert, Sample.credentials_secureNode]
  rfl

/-- The step in which the ground station of the sample receives the reply. -/
def forgedStep : Transition Sys Event Output :=
  ⟨⟨0, Sample.secureNode 0⟩, .recv Sample.chance forgedDatagram, {},
    ⟨0, { Sample.secureNode 0 with authenticationStatus := .unauth }⟩⟩

theorem failing_replies_sample :
    (Sample.secureNode 0).recvAERORP Sample.env 0 Sample.chance forgedDatagram =
        .ok ({ Sample.secureNode 0 with authenticationStatus := .unauth }, []) ∧
      forgedStep.post.node = { forgedStep.pre.node with authenticationStatus := .unauth } := by
  have hstep : Sys.Step Sample.env forgedStep := .recv (recvAERORP_of_fails forged_fails _)
  refine ⟨(failing_replies Sample.env).1 0 _ _ Sample.chance forged_fails,
    (failing_replies Sample.env).2 _ _ _ (Run.single _ hstep) ?_ ?_⟩
  · intro x hx
    rw [List.mem_singleton.mp hx]
    exact .inr ⟨_, _, rfl, forged_fails⟩
  · exact ⟨forgedStep, List.mem_cons_self, _, _, rfl⟩

/-- The ground station is made unauthenticated by a reply nobody signed. -/
theorem failing_reply_changes_status :
    ¬ ∀ (E : Env ℚ) (now : Time) (n m : Node) (es : List Effect) (d : Datagram) (chance : Chance),
      Fails E now n d → n.recvAERORP E now chance d = .ok (m, es) →
        m.authenticationStatus = n.authenticationStatus := by
  intro h
  have := h Sample.env 0 (Sample.secureNode 0) _ _ forgedDatagram Sample.chance forged_fails
    (recvAERORP_of_fails forged_fails Sample.chance)
  exact absurd this (by decide)

end SAeroRP.Replies
