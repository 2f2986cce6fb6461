import SAeroRP.Tdma.Course
import SAeroRP.Tdma.Link

/-! The TDMA network: the controller with its MACs, the channel and the devices. The layers
above send packets at any time, and more of them when a MAC says that its queue has room. A MAC
transmits when the controller lets it, and each copy the channel makes is received when it has
propagated. -/

namespace SAeroRP

open Library

structure TdmaNetwork where
  tdma : Tdma
  arrivals : List Arrival := []
  /-- History variables as in the state of a channel. -/
  sent : List Sent := []
  transmitted : List Transmission := []
  received : List (Arrival × Option TdmaNetDevice.Upcall) := []

namespace TdmaNetwork

/-- What the channel and the devices have of it. -/
def link (s : TdmaNetwork) : LinkState :=
  ⟨s.tdma.now, s.tdma.queues, s.arrivals, s.sent, s.transmitted, s.received⟩

/-- Nothing has been started, and no packet has been sent. -/
structure Initial (s : TdmaNetwork) : Prop where
  tdma : s.tdma.Idle
  link : s.link.Initial

inductive Event where
  | advance (dt : Time)
  | start
  | session (p : Time × SessionEvent)
  /-- With what the layer above sends when it is told that there is room. -/
  | sendPacketDown (d : PendingSend) (g : Geometry) (xs : List Sent)
  | send (x : Sent)
  | receive (a : Arrival)

/-- The layer above sends packets one after another. -/
def Calls (L : Link) (xs : List Sent) (now : Time) (q q' : TdmaMacQueue) : Prop :=
  q' = xs.foldl (fun q x => (x.call L now q).2) q

/-- `Does L c s e t`: in state `s` the event `e` may happen and leads to `t`. The controller and
its MACs do their step of it; time does not pass the time a frame is received at. -/
inductive Does (L : Link) (c : TdmaController) (s : TdmaNetwork) : Event → TdmaNetwork → Prop
  | advance {dt : Time} {t : Tdma} (h : s.tdma.Does c (Calls L []) (.advance dt) t [])
      (hdue : ∀ a ∈ s.arrivals, s.tdma.now + dt ≤ a.due) :
      Does L c s (.advance dt) { s with tdma := t }
  | start {t : Tdma} (h : s.tdma.Does c (Calls L []) .start t []) :
      Does L c s .start { s with tdma := t }
  | session {p : Time × SessionEvent} {t : Tdma}
      (h : s.tdma.Does c (Calls L []) (.session p) t []) :
      Does L c s (.session p) { s with tdma := t }
  | sendPacketDown {d : PendingSend} {g : Geometry} {xs : List Sent} {frame : Frame} {t : Tdma}
      (hxs : ∀ x ∈ xs, x.mac = d.mac)
      (h : s.tdma.Does c (Calls L xs) (.sendPacketDown d) t [frame]) :
      Does L c s (.sendPacketDown d g xs)
        { s with
          tdma := t
          arrivals := s.arrivals ++ (L.channel.send L.node g frame d.mac).map
            (·.arrival s.tdma.now s.transmitted.length)
          sent := s.sent ++ xs
          transmitted := s.transmitted ++ [⟨d.mac, s.tdma.now, g, frame⟩] }
  | send {x : Sent} {t : Tdma} (h : s.tdma.Does c (Calls L [x]) (.change x.mac) t []) :
      Does L c s (.send x) { s with tdma := t, sent := s.sent ++ [x] }
  | receive {a : Arrival} {up : Option TdmaNetDevice.Upcall} (ha : a ∈ s.arrivals)
      (hdue : a.due = s.tdma.now) (h : TdmaMacLow.receive (L.address a.low) a.frame = .ok up) :
      Does L c s (.receive a)
        { s with arrivals := s.arrivals.erase a, received := s.received ++ [(a, up)] }

def Step (L : Link) (c : TdmaController) (x : Transition TdmaNetwork Event Unit) : Prop :=
  Does L c x.pre x.event x.post

variable {L : Link} {c : TdmaController} {s t u : TdmaNetwork} {e : Event}
  {tr : List (Transition TdmaNetwork Event Unit)}

/-! ### The controller -/

/-- The calls enqueue packets. -/
theorem Calls.enqueues {xs : List Sent} {now : Time} {q q' : TdmaMacQueue}
    (h : Calls L xs now q q') : Tdma.Enqueues now q q' := by
  subst h
  induction xs generalizing q with
  | nil => exact ⟨[], .nil q le_rfl⟩
  | cons x xs ih =>
    obtain ⟨l, hl⟩ := ih (q := (x.call L now q).2)
    rw [x.snd_call L now q] at hl
    rw [List.foldl_cons, x.snd_call L now q]
    cases hq : q.enqueue now (x.frame L).packet (x.frame L).hdr with
    | mk taken q' =>
      rw [hq] at hl
      cases taken with
      | true => exact ⟨_, .taken le_rfl hq hl⟩
      | false => exact ⟨_, .refused le_rfl hq hl⟩

/-- The controller and its MACs take a step of their own, or none, and what they send is put on
the channel. -/
theorem Does.transmits (h : Does L c s e t) :
    ∃ new, t.transmitted = s.transmitted ++ new ∧ (t.tdma = s.tdma ∨
      ∃ e' frames, s.tdma.Does c Tdma.Enqueues e' t.tdma frames ∧
        ∀ d frame, e' = .sendPacketDown d → frames = [frame] →
          ∃ g, new = [⟨d.mac, s.tdma.now, g, frame⟩]) := by
  have hcalls : ∀ xs now q q', Calls L xs now q q' → Tdma.Enqueues now q q' :=
    fun _ _ _ _ hq => hq.enqueues
  have hnone : s.transmitted = s.transmitted ++ [] := (List.append_nil _).symm
  cases h with
  | advance h | start h | session h | send h =>
    exact ⟨[], hnone, .inr ⟨_, _, h.mono (hcalls _), fun d _ he => by cases he⟩⟩
  | sendPacketDown _ h =>
    refine ⟨_, rfl, .inr ⟨_, _, h.mono (hcalls _), fun d frame he hframe => ?_⟩⟩
    cases he
    cases hframe
    exact ⟨_, rfl⟩
  | receive => exact ⟨[], hnone, .inl rfl⟩

/-- What every step of the controller and its MACs keeps. -/
theorem Does.keeps {I : Tdma → Prop} (h : Does L c s e t)
    (hI : ∀ e' t' frames, s.tdma.Does c Tdma.Enqueues e' t' frames → I t') (hs : I s.tdma) :
    I t.tdma := by
  obtain ⟨-, -, hsame | ⟨e', frames, hdoes, -⟩⟩ := h.transmits
  · exact hsame ▸ hs
  · exact hI _ _ _ hdoes

/-- A run of the network is a run of the controller with its MACs. -/
theorem tdma_run (h : Run (Step L c) s tr u) :
    ∃ tr', Run (Tdma.Step c Tdma.Enqueues) s.tdma tr' u.tdma := by
  refine h.exists_map tdma fun x hx => ?_
  obtain ⟨-, -, hsame | ⟨e', frames, hdoes, -⟩⟩ := Does.transmits hx
  · exact ⟨[], hsame ▸ .nil _⟩
  · exact ⟨_, .single ⟨_, e', frames, _⟩ hdoes⟩

/-! ### The channel -/

/-- The calls of Send and SendFrom on one device. -/
theorem calls_run {mac : MacPtr} {xs : List Sent} (hxs : ∀ x ∈ xs, x.mac = mac) {q' : TdmaMacQueue}
    (k : LinkState) (h : Calls L xs k.now (k.queues mac) q') :
    ∃ tr, Run (LinkState.Step L) k tr { k.setQueue mac q' with sent := k.sent ++ xs } := by
  induction xs generalizing k with
  | nil =>
    subst h
    exact ⟨[], by simpa [LinkState.setQueue] using .nil k⟩
  | cons x xs ih =>
    obtain ⟨rfl, hxs⟩ := List.forall_mem_cons.mp hxs
    let k' : LinkState :=
      { k.setQueue x.mac (x.call L k.now (k.queues x.mac)).2 with sent := k.sent ++ [x] }
    have hsend : LinkState.Step L ⟨k, .send x, (), k'⟩ := LinkState.Does.send x
    have hcalls : Calls L xs k'.now (k'.queues x.mac) q' := by
      simpa [k', Calls, LinkState.setQueue] using h
    obtain ⟨tr, hrun⟩ := ih hxs k' hcalls
    have heq : { k'.setQueue x.mac q' with sent := k'.sent ++ xs } =
        { k.setQueue x.mac q' with sent := k.sent ++ x :: xs } := by
      simp [k', LinkState.setQueue]
    exact ⟨_, .cons rfl hsend (heq ▸ hrun)⟩

/-- A call of SendPacketDown, with the calls of the layer above and the start of the next
transmission. -/
theorem transmit_run {k : LinkState} {mac : MacPtr} {g : Geometry} {frame : Frame} {xs : List Sent}
    {us : ℤ} {q q' q'' : TdmaMacQueue} {d : Option TdmaCentralMac.SendEvent}
    (hxs : ∀ x ∈ xs, x.mac = mac)
    (h : TdmaCentralMac.sendPacketDown k.now (k.queues mac) = .ok (frame, q))
    (hcalls : Calls L xs k.now q q')
    (hsend : TdmaCentralMac.startTransmission c k.now us q' = .ok (q'', d)) :
    ∃ tr, Run (LinkState.Step L) k tr
      { k.setQueue mac q'' with
        arrivals := k.arrivals ++ (L.channel.send L.node g frame mac).map
          (·.arrival k.now k.transmitted.length)
        sent := k.sent ++ xs
        transmitted := k.transmitted ++ [⟨mac, k.now, g, frame⟩] } := by
  let k₁ : LinkState :=
    { k.setQueue mac q with
      arrivals := k.arrivals ++ (L.channel.send L.node g frame mac).map
        (·.arrival k.now k.transmitted.length)
      transmitted := k.transmitted ++ [⟨mac, k.now, g, frame⟩] }
  let k₂ : LinkState := { k₁.setQueue mac q' with sent := k₁.sent ++ xs }
  have hdown : LinkState.Step L ⟨k, .sendPacketDown mac g, (), k₁⟩ :=
    LinkState.Does.sendPacketDown h
  have hqueue : k₁.queues mac = q := LinkState.queues_setQueue_self k mac q
  obtain ⟨tr, hrun⟩ := calls_run hxs k₁ (hqueue.symm ▸ hcalls)
  have hqueue' : k₂.queues mac = q' := LinkState.queues_setQueue_self k₁ mac q'
  have hstart : LinkState.Step L ⟨k₂, .startTransmission mac c us, (), k₂.setQueue mac q''⟩ :=
    LinkState.Does.startTransmission (hqueue'.symm ▸ hsend)
  have hall := Run.cons rfl hdown (hrun.append (.single _ hstart))
  have heq : k₂.setQueue mac q'' = { k.setQueue mac q'' with
      arrivals := k₁.arrivals
      sent := k.sent ++ xs
      transmitted := k₁.transmitted } := by
    simp [k₁, k₂, LinkState.setQueue]
  rw [heq] at hall
  exact ⟨_, hall⟩

/-- The channel and the devices do steps of their own. -/
theorem Does.link (h : Does L c s e t) : ∃ tr, Run (LinkState.Step L) s.link tr t.link := by
  cases h with
  | advance h hdue =>
    cases h with
    | advance hdt => exact ⟨_, .single ⟨_, _, (), _⟩ (.advance hdt hdue)⟩
  | start h =>
    cases h
    refine ⟨[], ?_⟩
    unfold Tdma.start
    split_ifs <;> exact .nil _
  | session h =>
    cases h with
    | session hp hdue h hsend => exact ⟨_, .single ⟨_, _, (), _⟩ (.startTransmission hsend)⟩
  | sendPacketDown hxs h =>
    cases h with
    | sendPacketDown hd hdue h hchange hsend => exact transmit_run (k := s.link) hxs h hchange hsend
  | send h =>
    cases h with
    | change h =>
      obtain rfl : _ = _ := h
      exact ⟨_, .single ⟨_, _, (), _⟩ (.send _)⟩
  | receive ha hdue h => exact ⟨_, .single ⟨_, _, (), _⟩ (.receive ha hdue h)⟩

theorem link_run (h : Run (Step L c) s tr u) :
    ∃ tr', Run (LinkState.Step L) s.link tr' u.link :=
  h.exists_map link fun _ hx => Does.link hx

end TdmaNetwork

end SAeroRP
