import SAeroRP.Properties.DeferredPackets
import SAeroRP.Properties.PendingDestinations

/-! How long a deferred packet waits for an attempt. CheckQueueTimer runs while packets are
queued, for a minute at most, and CheckQueue then seeks a next hop for each of their
destinations. A packet is left behind only where it finds none. -/

namespace SAeroRP

open Library

namespace RequestQueue

/-- When the entry was enqueued, by the expiry time it got. -/
def enqueueTime (q : RequestQueue) (e : QueueEntry) : Time := e.expire - q.queueTimeout

theorem queueTimeout_enqueue {now : Time} {q q' : RequestQueue} {e : QueueEntry} {added : Bool}
    {dropped : List QueueEntry} (h : q.enqueue now e = .ok (added, q', dropped)) :
    q'.queueTimeout = q.queueTimeout := by
  unfold enqueue at h
  dsimp only at h
  split_ifs at h
  · cases h
    rfl
  · split at h <;> cases h
    rfl
  · cases h
    rfl

end RequestQueue

namespace Node

/-- Every queued packet was enqueued, or its destination was `sought` in vain, at a time
from which the timer expires within a minute. -/
structure Prompt (sought : Time → Ipv4Address → Prop) (now : Time) (n : Node) : Prop where
  notStranded : n.NotStranded
  checks : ∀ e ∈ n.queue.entries, ∃ expiry since, n.checkQueueTimer = some expiry ∧
    now ≤ expiry ∧ since ≤ now ∧ expiry ≤ since + Time.milliSeconds 60000 ∧
    (since = n.queue.enqueueTime e ∨ sought since e.header.destination)

variable {β : Type} [Preorder β] [DecidableLT β] [DecidableEq β] [Zero β] {E : Env β}
  {sought sought' : Time → Ipv4Address → Prop} {now : Time} {n m : Node}

theorem prompt_of_empty (h : n.queue.entries = []) : n.Prompt sought now where
  notStranded := ⟨by simp [h], fun hne => absurd h hne⟩
  checks e he := by
    rw [h] at he
    cases he

theorem Prompt.imp (hn : n.Prompt sought now)
    (h : ∀ since ≤ now, ∀ a, sought since a → sought' since a) : n.Prompt sought' now where
  notStranded := hn.notStranded
  checks e he := by
    obtain ⟨expiry, since, htimer, hwaits, hsince, hsoon, hcause⟩ := hn.checks e he
    exact ⟨expiry, since, htimer, hwaits, hsince, hsoon, hcause.imp id (h since hsince _)⟩

theorem Prompt.keepsDeferred (hn : n.Prompt sought now) (h : KeepsDeferred n m) :
    m.Prompt sought now := by
  obtain ⟨⟨hpending, htimer⟩, hchecks⟩ := hn
  rw [← h.queue, ← h.queuedAddresses] at hpending
  rw [← h.queue, ← h.checkQueueTimer] at htimer hchecks
  exact ⟨⟨hpending, htimer⟩, hchecks⟩

theorem Prompt.advance (hn : n.Prompt sought now) {dt : Time} (hdt : 0 ≤ dt)
    (htimer : ∀ expiry, n.checkQueueTimer = some expiry → now + dt ≤ expiry) :
    n.Prompt sought (now + dt) where
  notStranded := hn.notStranded
  checks e he := by
    obtain ⟨expiry, since, hexpiry, -, hsince, hrest⟩ := hn.checks e he
    exact ⟨expiry, since, hexpiry, htimer expiry hexpiry, by linarith, hrest⟩

/-- A packet that joins others finds the timer they wait for; the first one starts it. -/
theorem Prompt.deferredRouteOutput (hn : n.Prompt sought now) {p : Packet} {header : Ipv4Header}
    {ucb ecb : Callback} {es : List Effect}
    (h : n.deferredRouteOutput now p header ucb ecb = .ok (m, es)) : m.Prompt sought now := by
  refine ⟨hn.notStranded.deferredRouteOutput h, fun e he => ?_⟩
  obtain ⟨added, queue, dropped, henq, rfl, -⟩ := deferredRouteOutput_ok h
  have hkept : ∀ i ∈ (n.queue.purge now).1.entries, i ∈ n.queue.entries := fun i hi =>
    (RequestQueue.mem_purge.mp hi).1
  have htimeout : queue.queueTimeout = n.queue.queueTimeout :=
    (RequestQueue.queueTimeout_enqueue henq).trans (RequestQueue.queueTimeout_purge now n.queue)
  have hcases : e ∈ (n.queue.purge now).1.entries ∨ n.queue.enqueueTime e = now := by
    have hin : e ∈ dropped ++ queue.entries := List.mem_append_right _ he
    rcases RequestQueue.enqueue_ok henq with ⟨-, hperm⟩ | ⟨-, hperm⟩
    · exact .inl (hperm.subset hin)
    · rcases List.mem_append.mp (hperm.subset hin) with hold | hnew
      · exact .inl hold
      · right
        rw [List.mem_singleton.mp hnew, RequestQueue.enqueueTime, QueueEntry.setExpireTime,
          RequestQueue.queueTimeout_purge]
        ring
  simp only [RequestQueue.enqueueTime, htimeout] at hcases ⊢
  by_cases hempty : (n.queue.purge now).1.entries = []
  · have hnew := hcases.resolve_left (by simp [hempty])
    refine ⟨_, now, if_pos (by rw [hempty]; rfl), ?_, le_rfl, ?_, .inl hnew.symm⟩ <;>
      simp [Time.milliSeconds]
  · have hlen : (n.queue.purge now).1.entries.length ≠ 0 := by simpa using hempty
    rw [if_neg hlen]
    rcases hcases with hold | hnew
    · exact hn.checks e (hkept e hold)
    · obtain ⟨i, hi⟩ := List.exists_mem_of_ne_nil _ hempty
      obtain ⟨expiry, since, htimer, hwaits, hsince, hsoon, -⟩ := hn.checks i (hkept i hi)
      exact ⟨expiry, now, htimer, hwaits, le_rfl, by linarith, .inl hnew.symm⟩

/-- CheckQueue leaves the packets for which it found no next hop, and starts the timer for
them. -/
theorem Prompt.checkQueue (hn : n.Prompt sought now)
    (h : ∀ c ∈ (n.checkQueue E now).2, c.sent = false → sought now c.dst) :
    (n.checkQueue E now).1.Prompt sought now := by
  have hstranded := hn.notStranded.checkQueue E now
  refine ⟨hstranded, fun e he => ?_⟩
  have hin : e ∈ n.queue.entries :=
    subset_checkQueueCalls E now { n with checkQueueTimer := none } n.queuedAddresses he
  have hdst := hn.notStranded.pending e hin
  rw [← Pending.map_dst_checkQueue (E := E) now] at hdst
  obtain ⟨c, hc, hcdst⟩ := List.mem_map.mp hdst
  have hsent : c.sent = false := by
    by_contra hsent
    exact drained_checkQueueCalls E now { n with checkQueueTimer := none } n.queuedAddresses c hc
      (eq_true_of_ne_false hsent) e he hcdst.symm
  have htimer : (n.checkQueue E now).1.checkQueueTimer =
      some (now + Time.milliSeconds 60000) := by
    have hruns := hstranded.timer (List.ne_nil_of_mem he)
    simp only [Node.checkQueue] at hruns ⊢
    split_ifs at hruns ⊢
    · exact absurd rfl hruns
    · rfl
  exact ⟨_, now, htimer, by simp [Time.milliSeconds], le_rfl, le_rfl, .inr (hcdst ▸ h c hc hsent)⟩

/-- The destination is no neighbour where CheckQueue finds no next hop. -/
theorem isNeighbour_of_not_sent {c : SendCall} (hc : c ∈ (n.checkQueue E now).2)
    (hsent : c.sent = false) : (n.neighbors.purge now).isNeighbour c.dst = false := by
  obtain ⟨k, dst, hk, rfl⟩ := checkQueue_mem hc
  rw [sendPacketFromQueue_dst]
  have hstranger : k.neighbors.isNeighbour dst ≠ true := by
    intro hneighbour
    have hhop : (k.queueNextHop E now dst).1 = some dst := by
      rw [queueNextHop_eq, if_pos hneighbour]
    rw [sendPacketFromQueue_of_some hhop] at hsent
    cases hsent
  rw [← Bool.not_eq_true]
  intro hneighbour
  rcases hk.neighbors with heq | heq <;> rw [heq] at hstranger
  · obtain ⟨e, he⟩ := Option.isSome_iff_exists.mp hneighbour
    exact hstranger (Option.isSome_iff_exists.mpr
      ⟨e, (EntryTable.getElem?_purge_eq_some.mp he).1⟩)
  · exact hstranger hneighbour

end Node

namespace Deferral

variable {β : Type} [Preorder β] [DecidableLT β] [DecidableEq β] [Zero β] {E : Env β}
  {sought : Time → Ipv4Address → Prop} {s t u : Sys}

theorem prompt_does {e : SAeroRP.Event} {o : Output} (h : Sys.Does E s e t o)
    (hsought : e = .checkQueue → ∀ c ∈ (s.node.checkQueue E s.now).2, c.sent = false →
      sought s.now c.dst) (hs : s.node.Prompt sought s.now) : t.node.Prompt sought t.now := by
  cases h with
  | advance hdt htimer => exact hs.advance hdt htimer
  | move => exact hs.keepsDeferred ⟨rfl, rfl, rfl⟩
  | recv h => exact hs.keepsDeferred (.of_receives (Node.recvAERORP_receives h))
  | routeOutput h => exact hs.keepsDeferred (.of_routeOutput h)
  | routeInput h =>
    obtain ⟨k, hkeeps, heq | ⟨p, es, hdefer⟩⟩ := routeInput_defers h
    · show Node.Prompt _ _ _
      rw [heq]
      exact hs.keepsDeferred hkeeps
    · exact (hs.keepsDeferred hkeeps).deferredRouteOutput hdefer
  | checkQueue => exact hs.checkQueue (hsought rfl)
  | authenticationTimer => exact hs

/-- CheckQueue sought a next hop for the destination in the transition, and found none. -/
def Seeks (x : Transition Sys SAeroRP.Event Output) (a : Ipv4Address) : Prop :=
  x.event = .checkQueue ∧ ∃ c ∈ x.out.calls, c.dst = a ∧ c.sent = false

/-- One of the transitions sought a next hop for the destination at the time. -/
def SoughtIn (tr : List (Transition Sys SAeroRP.Event Output)) (since : Time) (a : Ipv4Address) :
    Prop :=
  ∃ x ∈ tr, x.pre.now = since ∧ Seeks x a

/-- In every run, a packet that is queued was enqueued within the last minute, or CheckQueue
found no next hop for it within the last minute. -/
theorem deferred_attempted {tr : List (Transition Sys SAeroRP.Event Output)}
    (hempty : s.node.queue.entries = []) (h : Run (Sys.Step E) s tr u) :
    ∀ e ∈ u.node.queue.entries,
      u.now ≤ u.node.queue.enqueueTime e + Time.milliSeconds 60000 ∨
        ∃ x ∈ tr, u.now ≤ x.pre.now + Time.milliSeconds 60000 ∧
          Seeks x e.header.destination := by
  have hprompt : u.node.Prompt (SoughtIn tr) u.now := by
    refine (h.invariant_of (C := (· ∈ tr)) (I := fun s => s.node.Prompt (SoughtIn tr) s.now)
      (fun x hx hmem hpre => ?_) (fun _ hx => hx) (Node.prompt_of_empty hempty)).1
    refine prompt_does hx (fun he c hc hsent => ⟨x, hmem, rfl, he, c, ?_, rfl, hsent⟩) hpre
    obtain ⟨pre, e, o, post⟩ := x
    cases he
    replace hx : Sys.Does E pre .checkQueue post o := hx
    cases hx with
    | checkQueue => exact hc
  intro e he
  obtain ⟨expiry, since, -, hwaits, -, hsoon, heq | ⟨x, hx, heq, hseeks⟩⟩ := hprompt.checks e he
  · left
    rw [← heq]
    exact hwaits.trans hsoon
  · refine .inr ⟨x, hx, ?_, hseeks⟩
    rw [heq]
    exact hwaits.trans hsoon

/-- A packet comes back over the loopback device, and nothing is known of its destination. -/
def fragmentEvents : List SAeroRP.Event :=
  [.routeInput Sample.chance ⟨[1], 7, true⟩ (fragment 1).header 0 1 3 2,
    .advance (Time.milliSeconds 500), .checkQueue, .advance (Time.milliSeconds 60000)]

theorem deferred_attempted_fragment : ∃ tr u e, Run (Sys.Step Sample.env) Sample.initial tr u ∧
    u.now = Time.milliSeconds 60500 ∧ e ∈ u.node.queue.entries ∧
    (u.now ≤ u.node.queue.enqueueTime e + Time.milliSeconds 60000 ∨
      ∃ x ∈ tr, u.now ≤ x.pre.now + Time.milliSeconds 60000 ∧ Seeks x e.header.destination) := by
  obtain ⟨tr, u, hrun, hu⟩ := Sys.exists_run_of_execute (E := Sample.env) (s := Sample.initial)
    (f := fun u => u.now = Time.milliSeconds 60500 ∧ u.node.queue.entries ≠ [])
    (show (Sys.execute Sample.env Sample.initial fragmentEvents).any _ = true by decide +kernel)
  obtain ⟨hnow, hne⟩ := of_decide_eq_true hu
  obtain ⟨e, he⟩ := List.exists_mem_of_ne_nil _ hne
  exact ⟨tr, u, e, hrun, hnow, he, deferred_attempted rfl hrun e he⟩

end Deferral

end SAeroRP
