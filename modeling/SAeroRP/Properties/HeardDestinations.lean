import SAeroRP.Properties.DeferralTimes
import SAeroRP.Properties.HeardNeighbors

/-! Packets for a neighbour that is heard. CheckQueue finds a neighbour that is in the table, so a
packet that was deferred for it is gone after a minute. -/

namespace SAeroRP

open Library

variable {β : Type} [Preorder β] [DecidableLT β] [DecidableEq β] [Zero β] {E : Env β}
  {I : Intervals} {outOfRange : ℚ → UInt32}

namespace Advertiser

variable {sought : Time → Ipv4Address → Prop} {s t : Advertiser} {e : Event} {es : List Effect}

theorem queue_start (created : Credentials) (generated : Block SHARED_KEY_SIZE) (n : Node) :
    (n.start created generated).queue = n.queue := by
  unfold Node.start
  dsimp only
  split_ifs <;> rfl

/-- Start leaves the queue as it is. -/
theorem Does.queue_start (h : Does E I outOfRange s .start t es) : t.node.queue = s.node.queue := by
  cases h with
  | start _ _ _ h =>
    rw [(start_ok h).1]
    exact Advertiser.queue_start ..

/-- After Start, every event of a node makes the packets wait no longer. -/
theorem Does.prompt (h : Does E I outOfRange s e t es) (he : e ≠ .start)
    (hsought : ∀ c ∈ (s.node.checkQueue E s.now).2, c.sent = false → sought s.now c.dst)
    (hs : s.node.Prompt sought s.now) : t.node.Prompt sought t.now := by
  cases h with
  | advance hnode => exact Deferral.prompt_does hnode (fun _ => hsought) hs
  | start => exact absurd rfl he
  | helloTimer _ _ h =>
    obtain ⟨-, -, rfl⟩ := helloTimerExpire_ok h
    exact hs
  | gsTimer _ _ h =>
    obtain ⟨-, -, rfl⟩ := gsTimerExpire_ok h
    exact hs
  | authenticationTimer _ h =>
    obtain ⟨-, rfl⟩ := authenticationTimerExpire_ok h
    exact hs
  | call _ h => exact Deferral.prompt_does h (fun _ => hsought) hs

end Advertiser

namespace Fleet

open Node

variable {ι : Type} [DecidableEq ι] {M : Medium ι} {s₀ s t u : Fleet ι}
  {T : Transition (Fleet ι) (Event ι) (List (Flight ι)) → Prop} {e : Event ι}
  {ms : List (Flight ι)} {tr : List (Transition (Fleet ι) (Event ι) (List (Flight ι)))}
  {i j : ι} {a : Ipv4Address} {D : Time}

/-- The destinations sought in vain are others than the address, or that was early. -/
def EarlyOrOther (a : Ipv4Address) (D since : Time) (b : Ipv4Address) : Prop :=
  b = a → 2 * since ≤ D

omit [DecidableEq ι] in
/-- CheckQueue finds the address once it is known. -/
theorem earlyOrOther_of_checkQueue (hs : Sound I M outOfRange s₀ T s)
    (ha : a ≠ Ipv4Address.getZero)
    (hlife : 3 * I.helloInterval + 2 * M.delay < 2 * NeighborTable.entryLifeTime)
    (hheard : 2 * s.now ≤ D ∨ Heard I M i j a D s) {c : SendCall}
    (hc : c ∈ ((s.nodes i).node.checkQueue E (s.nodes i).now).2) (hsent : c.sent = false) :
    EarlyOrOther a D (s.nodes i).now c.dst := by
  rintro rfl
  rw [hs.clock i] at hc ⊢
  by_contra hlate
  push Not at hlate
  rcases hheard with hearly | hheard
  · linarith
  · obtain ⟨v, -, hv, -⟩ := hheard.known hs ha hlife hlate
    have hstranger := isNeighbour_of_not_sent hc hsent
    rw [NeighborTable.isNeighbour, hv] at hstranger
    cases hstranger

theorem Does.prompt (hs : Sound I M outOfRange s₀ T s) (h : Does E I outOfRange M s e t ms)
    (ha : a ≠ Ipv4Address.getZero)
    (hlife : 3 * I.helloInterval + 2 * M.delay < 2 * NeighborTable.entryLifeTime)
    (hheard : 2 * s.now ≤ D ∨ Heard I M i j a D s) (hi : (s.nodes i).Advertises I)
    (hprompt : (s.nodes i).node.Prompt (EarlyOrOther a D) (s.nodes i).now) :
    (t.nodes i).node.Prompt (EarlyOrOther a D) (t.nodes i).now := by
  rcases h.node i with heq | ⟨e', es, hnode⟩
  · rwa [heq]
  · refine hnode.prompt ?_ (fun c hc => earlyOrOther_of_checkQueue hs ha hlife hheard hc) hprompt
    rintro rfl
    exact hi.ne_start hnode rfl

theorem Does.queue_start (h : Does E I outOfRange M s (.act i .start) t ms) :
    (t.nodes i).node.queue = (s.nodes i).node.queue := by
  cases h with
  | act _ h =>
    simp only [Function.update_self]
    exact h.queue_start

/-- From a minute after the first message of a neighbour that is heard on, no packet for it waits
longer than a minute. -/
theorem heard_destination_served (hI : 0 ≤ I.gsInterval) (hs₀ : Initial s₀)
    (h : Run (Step E I outOfRange M) s₀ tr u)
    (hairborne : (s₀.nodes j).node.isGroundStation = false)
    (haddress : (s₀.nodes j).node.HasAddress a) (ha : a ≠ Ipv4Address.getZero)
    (hhears : M.hears i a)
    (hlife : 3 * I.helloInterval + 2 * M.delay < 2 * NeighborTable.entryLifeTime)
    {x y : Transition (Fleet ι) (Event ι) (List (Flight ι))} (hx : x ∈ tr)
    (hstart : x.event = .act j .start) (hy : y ∈ tr) (hstart' : y.event = .act i .start)
    (hempty : (y.pre.nodes i).node.queue.entries = [])
    (hlate : 2 * x.pre.now + 3 * I.helloInterval + 2 * M.delay +
      2 * Time.milliSeconds 60000 < 2 * u.now) :
    ∀ e ∈ (u.nodes i).node.queue.entries, e.header.destination = a →
      u.now ≤ (u.nodes i).node.queue.enqueueTime e + Time.milliSeconds 60000 := by
  obtain ⟨hend, hsound⟩ := sound_run hI hs₀ h
  obtain ⟨D, hD⟩ : ∃ D, D = 2 * x.pre.now + 3 * I.helloInterval + 2 * M.delay := ⟨_, rfl⟩
  obtain ⟨-, hheard⟩ := heard_run hI hs₀ h hairborne haddress ha hhears hlife hx hstart hD
  have hstep := h.step_of_mem y hy
  rw [Step, hstart'] at hstep
  have hadvertises := hstep.advertises_of_start hI (hsound y hy)
  rw [← hstep.queue_start] at hempty
  obtain ⟨tr₁, tr₂, rfl, -, h₂⟩ := h.exists_split hy
  obtain ⟨-, hprompt⟩ := (h₂.invariant_of (C := (· ∈ tr₁ ++ y :: tr₂))
    (I := fun s => (s.nodes i).Advertises I ∧ (s.nodes i).node.Prompt (EarlyOrOther a D)
      (s.nodes i).now)
    (fun z hz hT hpre => ⟨hz.advertises hpre.1,
      hz.prompt (hsound z hT) ha hlife (hheard z hT) hpre.1 hpre.2⟩)
    (fun z hz => List.mem_append_right _ (List.mem_cons_of_mem _ hz))
    ⟨hadvertises, prompt_of_empty hempty⟩).1
  rintro e he rfl
  obtain ⟨expiry, since, -, hwaits, -, hsoon, hcause⟩ := hprompt.checks e he
  rw [hend.clock i] at hwaits
  rcases hcause with rfl | hearly
  · exact hwaits.trans hsoon
  · exact absurd (hearly rfl) (by linarith)

/-! ### Two nodes -/

section
variable {now gap : Time} {listener : Node} {gs : Timer}

variable (now gap gs) in
/-- Node 1 sends message after message. -/
theorem exists_rounds (k : ℕ) (hplain : listener.securityState = false)
    (hidle : listener.checkQueueTimer = none)
    (hgs : ∀ t, gs.expiry = some t → now + k * Time.milliSeconds 1500 ≤ t) :
    ∃ tr neighbors, Run (Step Sample.env { gsInterval := gap } (fun _ => 0) radio)
      (pair now listener ⟨true, some now⟩ [] gs) tr
      (pair (now + k * Time.milliSeconds 1500) { listener with neighbors }
        ⟨true, some (now + k * Time.milliSeconds 1500)⟩ [] gs) := by
  induction k with
  | zero =>
    refine ⟨[], listener.neighbors, ?_⟩
    rw [Nat.cast_zero, zero_mul, add_zero]
    exact .nil _
  | succ k ih =>
    have hnext : now + (k + 1 : ℕ) * Time.milliSeconds 1500 =
        now + k * Time.milliSeconds 1500 + Time.milliSeconds 1500 := by
      push_cast
      ring
    have hpos : 0 ≤ Time.milliSeconds 1500 := by decide
    rw [hnext] at hgs ⊢
    obtain ⟨tr, neighbors, hrun⟩ := ih fun t ht => by linarith [hgs t ht]
    have hplain' : { listener with neighbors }.securityState = false := hplain
    obtain ⟨tr', hrun'⟩ := exists_salute_run (now + k * Time.milliSeconds 1500) gap gs hplain'
    have hidle' : (saluted (now + k * Time.milliSeconds 1500)
      { listener with neighbors }).checkQueueTimer = none := hidle
    have hwait : Does Sample.env { gsInterval := gap } (fun _ => 0) radio _ _ _ _ :=
      advance_pair hpos hidle' hgs le_rfl
    exact ⟨_, _, hrun.append (hrun'.append (.single ⟨_, _, _, _⟩ hwait))⟩

theorem listener_does {node : Node} {gs' : Timer} {e : Advertiser.Event} {timer : Timer}
    (he : IsLocal e)
    (h : Advertiser.Does Sample.env { gsInterval := gap } (fun _ => 0)
      ⟨now, listener, {}, gs, {}⟩ e ⟨now, node, {}, gs', {}⟩ []) :
    Does Sample.env { gsInterval := gap } (fun _ => 0) radio (pair now listener timer [] gs)
      (.act false e) (pair now node timer [] gs') [] := by
  have hdoes := Does.act (s := pair now listener timer [] gs) (i := false) he h
    (radio.carries_nil _ _ (by simp))
  rwa [update_pair_false _ []] at hdoes

theorem listener_start (timer : Timer) :
    Does Sample.env {} (fun _ => 0) radio (pair 0 (Sample.node 0) timer [])
      (.act false .start) (pair 0 (Sample.node 0) timer [] ⟨true, some 0⟩) [] := by
  have hok : Advertiser.start (Sample.credentials 0) (Sample.fill _ []) 0 0 0
      ⟨0, Sample.node 0, {}, {}, {}⟩ = .ok ⟨0, Sample.node 0, {}, ⟨true, some 0⟩, {}⟩ := rfl
  exact listener_does trivial (.start (by decide) (by decide) (by decide) hok)

variable (now listener) in
/-- The ground station has no node to send a message to, and its timer is set again: it expires
every 5 s, half a second early or late. -/
theorem listener_gsTimer (timer : Timer) :
    Does Sample.env {} (fun _ => 0) radio (pair now listener timer [] ⟨true, some now⟩)
      (.act false .gsTimer)
      (pair now listener timer [] ⟨true, some (now + Time.milliSeconds 4500)⟩) [] := by
  have hexpire : Advertiser.gsTimerExpire {} (fun _ => 0)
      ⟨fun _ => ⟨0, 0, 0⟩, fun _ => ⟨0, 0, 0⟩, fun _ => ⟨0, 0, 0⟩, fun _ => ⟨0, 0, 0⟩⟩ false []
      (-Time.milliSeconds 500) ⟨now, listener, {}, ⟨true, some now⟩, {}⟩ =
      .ok (⟨now, listener, {}, ⟨true, some (now + Time.milliSeconds 4500)⟩, {}⟩, []) := rfl
  exact listener_does trivial (.gsTimer rfl (by decide) hexpire)

variable (now) in
/-- Node 1 sends three messages while the timer of the ground station runs. -/
theorem exists_cycles (k : ℕ) (hplain : listener.securityState = false)
    (hidle : listener.checkQueueTimer = none) :
    ∃ tr neighbors, Run (Step Sample.env {} (fun _ => 0) radio)
      (pair now listener ⟨true, some now⟩ [] ⟨true, some now⟩) tr
      (pair (now + k * Time.milliSeconds 4500) { listener with neighbors }
        ⟨true, some (now + k * Time.milliSeconds 4500)⟩ []
        ⟨true, some (now + k * Time.milliSeconds 4500)⟩) := by
  induction k with
  | zero =>
    refine ⟨[], listener.neighbors, ?_⟩
    rw [Nat.cast_zero, zero_mul, add_zero]
    exact .nil _
  | succ k ih =>
    obtain ⟨tr, neighbors, hrun⟩ := ih
    have hnext : now + (k + 1 : ℕ) * Time.milliSeconds 4500 =
        now + k * Time.milliSeconds 4500 + (3 : ℕ) * Time.milliSeconds 1500 := by
      rw [show Time.milliSeconds 4500 = 3 * Time.milliSeconds 1500 by decide]
      push_cast
      ring
    have hthree : Time.milliSeconds 4500 = (3 : ℕ) * Time.milliSeconds 1500 := by decide
    have hgs := listener_gsTimer (now + k * Time.milliSeconds 4500) { listener with neighbors }
      ⟨true, some (now + k * Time.milliSeconds 4500)⟩
    have hplain' : { listener with neighbors }.securityState = false := hplain
    obtain ⟨tr', neighbors', hrun'⟩ := exists_rounds (now + k * Time.milliSeconds 4500)
      (Time.seconds 5) ⟨true, some (now + k * Time.milliSeconds 4500 + Time.milliSeconds 4500)⟩ 3
      hplain' hidle (fun t ht => by cases ht; rw [hthree])
    rw [hnext]
    nth_rewrite 2 [hthree] at hrun'
    exact ⟨_, _, hrun.append (.cons (x := ⟨_, _, _, _⟩) rfl hgs hrun')⟩

/-- A packet of the ground station for node 1, which comes back over the loopback device. -/
def header : Ipv4Header := ⟨.ofOctets 10 1 1 1, .ofOctets 10 1 1 2⟩

variable (now gap gs) in
/-- The ground station defers the packet, whomever it knows. -/
theorem exists_defer (neighbors : NeighborTable) (timer : Timer) :
    ∃ e node, e.header = header ∧ e ∈ node.queue.entries ∧
      Does Sample.env { gsInterval := gap } (fun _ => 0) radio
        (pair now { Sample.node 0 with neighbors } timer [] gs)
        (.act false (.call (.routeInput Sample.chance ⟨[1], 7, true⟩ header 0 1 3 2)))
        (pair now node timer [] gs) [] := by
  obtain ⟨r, hr, hnone, e, he, hheader⟩ : ∃ r : RouteInputResult,
      { Sample.node 0 with neighbors }.routeInput Sample.env now Sample.chance ⟨[1], 7, true⟩
        header 0 1 3 2 = .ok r ∧ r.effects = [] ∧ ∃ e ∈ r.node.queue.entries, e.header = header :=
    ⟨_, rfl, rfl, _, List.mem_singleton_self _, rfl⟩
  have hnode : Sys.Does Sample.env ⟨now, { Sample.node 0 with neighbors }⟩ _ ⟨now, r.node⟩
      { effects := r.effects } := .routeInput hr
  rw [hnone] at hnode
  have hcall : Advertiser.Does Sample.env { gsInterval := gap } (fun _ => 0)
      ⟨now, { Sample.node 0 with neighbors }, {}, gs, {}⟩
      (.call (.routeInput Sample.chance ⟨[1], 7, true⟩ header 0 1 3 2))
      ⟨now, r.node, {}, gs, {}⟩ [] :=
    .call (o := { effects := [] }) trivial hnode
  exact ⟨e, r.node, hheader, he, listener_does trivial hcall⟩

/-- The ground station knows node 1 for a minute, and defers a packet for it. -/
theorem heard_destination_served_pair :
    ∃ (tr : List (Transition (Fleet Bool) (Event Bool) _)) (listener : Node) (e : QueueEntry),
      Run (Step Sample.env {} (fun _ => 0) radio) (pair 0 (Sample.node 0) {} []) tr
        (pair (Time.seconds 63) listener ⟨true, some (Time.seconds 63)⟩ []
          ⟨true, some (Time.seconds 63)⟩) ∧
      e ∈ listener.queue.entries ∧ e.header.destination = .ofOctets 10 1 1 2 ∧
      Time.seconds 63 ≤ listener.queue.enqueueTime e + Time.milliSeconds 60000 := by
  have hstart : Does Sample.env {} (fun _ => 0) radio (pair 0 (Sample.node 0) {} [])
      (.act true .start) (pair 0 (Sample.node 0) ⟨true, some 0⟩ []) [] := start_pair
  have hstart' : Does Sample.env {} (fun _ => 0) radio _ _ _ _ := listener_start ⟨true, some 0⟩
  have hplain : (Sample.node 0).securityState = false := rfl
  obtain ⟨tr₂, neighbors, hrun₂⟩ := exists_cycles 0 14 hplain rfl
  obtain ⟨e, node, hheader, he, hdefer⟩ := exists_defer (Time.seconds 63) (Time.seconds 5)
    ⟨true, some (Time.seconds 63)⟩ neighbors ⟨true, some (Time.seconds 63)⟩
  have hrun := Run.cons (x := ⟨_, _, _, _⟩) rfl hstart
    (.cons (x := ⟨_, _, _, _⟩) rfl hstart' (hrun₂.append (.single ⟨_, _, _, _⟩ hdefer)))
  have hlate : 2 * (0 : ℤ) + 3 * Time.seconds 1 + 2 * 0 + 2 * Time.milliSeconds 60000 <
      2 * Time.seconds 63 := by decide
  refine ⟨_, node, e, hrun, he, by rw [hheader]; rfl, ?_⟩
  exact heard_destination_served (i := false) (j := true) (by decide) pair_initial hrun rfl
    (hasAddress_node.mpr rfl) (by decide) rfl (by decide) List.mem_cons_self rfl
    (List.mem_cons_of_mem _ List.mem_cons_self) rfl rfl hlate e he (by rw [hheader]; rfl)

end

end Fleet

end SAeroRP
