import SAeroRP.Properties.MacQueueHistory
import SAeroRP.Tdma.CentralMac

/-! The limit of the queue of a TDMA device while it is being changed. Enqueue refuses a packet
when the queue is exactly full, so a queue above its limit grows on; and the MAC reports the
state of the queue before expired packets are dropped, while Enqueue drops them first. -/

namespace SAeroRP

open Library

namespace TdmaMacQueue

section
variable {now : Time} {q : TdmaMacQueue}

theorem Counted.size_eq_iff (h : q.Counted) {n : UInt32} :
    q.size = n ↔ q.queue.length = n.toNat := by
  rw [← UInt32.toNat_inj, h]

/-- Enqueue refuses a packet when the queue is exactly full. -/
theorem enqueue_eq_false_iff (h : q.Counted) (packet : Packet) (hdr : WifiMacHeader) :
    (q.enqueue now packet hdr).1 = false ↔
      (q.cleanup now).queue.length = q.maxSize.toNat := by
  rw [← (h.cleanup now).size_eq_iff]
  have hmax : (q.cleanup now).maxSize = q.maxSize := rfl
  unfold enqueue
  dsimp only
  rw [hmax]
  split_ifs with hfull
  · simp [hfull]
  · simp [hfull]

theorem getQueueState_eq_zero_iff (h : q.Counted) :
    TdmaCentralMac.getQueueState q = 0 ↔ q.queue.length = q.maxSize.toNat := by
  rw [← h.size_eq_iff, eq_comm (a := q.size)]
  unfold TdmaCentralMac.getQueueState
  split_ifs with hfull
  · exact ⟨fun _ => hfull, fun _ => rfl⟩
  · exact ⟨fun h => absurd h (by decide), fun h => absurd h hfull⟩

/-- Cleanup leaves a queue alone exactly when nothing has expired. -/
theorem length_cleanup_eq_iff :
    (q.cleanup now).queue.length = q.queue.length ↔ q.expired now = [] := by
  have hlen := (q.perm_cleanup now).length_eq
  rw [List.length_append] at hlen
  rw [← List.length_eq_zero_iff]
  omega

end

namespace History

/-! ### Calls of the queue and of the MAC -/

inductive Operation where
  | call (c : Call)
  | getQueueState

inductive Reply where
  | answer (out : Answer)
  | state (s : UInt32)

structure Request where
  time : Time
  operation : Operation

def Served (x : Transition History Request Reply) : Prop :=
  x.pre.now ≤ x.event.time ∧
    match x.event.operation with
    | .call c => ∃ out, x.out = .answer out ∧
        (x.post, out) = { x.pre with now := x.event.time }.perform c
    | .getQueueState => x.post = { x.pre with now := x.event.time } ∧
        x.out = .state (TdmaCentralMac.getQueueState x.pre.queue)

/-- Enqueue refuses what is above the limit, and the state that is reported says whether it
would. -/
structure Bounded (x : Transition History Request Reply) : Prop where
  refuses : ∀ packet hdr, x.event.operation = .call (.enqueue packet hdr) →
    x.pre.queue.maxSize.toNat ≤ (x.pre.queue.cleanup x.event.time).queue.length →
      x.out = .answer (.flag false)
  length : ∀ packet hdr, x.event.operation = .call (.enqueue packet hdr) →
    x.post.queue.queue.length ≤ x.pre.queue.maxSize.toNat
  reports : x.event.operation = .getQueueState → ∀ packet hdr,
    x.out = .state 0 ↔ (x.post.queue.enqueue x.event.time packet hdr).1 = false

/-- The queue is not above its limit when a packet comes in, and when its state is asked for
it has no expired packets or is full neither with nor without them. -/
structure HasRoom (x : Transition History Request Reply) : Prop where
  enqueue : ∀ packet hdr, x.event.operation = .call (.enqueue packet hdr) →
    (x.pre.queue.cleanup x.event.time).queue.length ≤ x.pre.queue.maxSize.toNat
  state : x.event.operation = .getQueueState → x.pre.queue.expired x.event.time = [] ∨
    x.pre.queue.queue.length ≠ x.pre.queue.maxSize.toNat ∧
      (x.pre.queue.cleanup x.event.time).queue.length ≠ x.pre.queue.maxSize.toNat

/-- A limit that is set is not below the number of packets in the queue. -/
def LeavesRoom (x : Transition History Request Reply) : Prop :=
  ∀ maxSize, x.event.operation = .call (.setMaxSize maxSize) →
    x.pre.queue.queue.length ≤ maxSize.toNat

section
variable {s : History} {x : Transition History Request Reply}

theorem ne_getQueueState {c : Call} (hop : x.event.operation = .call c) :
    x.event.operation ≠ .getQueueState := by
  rw [hop]
  rintro ⟨⟩

/-- What a call does is what it did in a history of calls alone. -/
theorem step_of_served {c : Call} (hx : Served x) (hop : x.event.operation = .call c) :
    ∃ out, x.out = .answer out ∧ Step ⟨x.pre, ⟨x.event.time, c⟩, out, x.post⟩ := by
  have hresult := hx.2
  rw [hop] at hresult
  obtain ⟨out, hout, hperform⟩ := hresult
  exact ⟨out, hout, hx.1, hperform⟩

theorem served_enqueue {packet : Packet} {hdr : WifiMacHeader} (hx : Served x)
    (hop : x.event.operation = .call (.enqueue packet hdr)) : ∃ taken,
      x.pre.queue.enqueue x.event.time packet hdr = (taken, x.post.queue) ∧
        x.out = .answer (.flag taken) := by
  have hresult := hx.2
  rw [hop] at hresult
  obtain ⟨out, hout, hperform⟩ := hresult
  have hpost : x.post = ({ x.pre with now := x.event.time }.perform (.enqueue packet hdr)).1 :=
    congrArg Prod.fst hperform
  have hflag : out = ({ x.pre with now := x.event.time }.perform (.enqueue packet hdr)).2 :=
    congrArg Prod.snd hperform
  rw [hpost, hout, hflag]
  exact ⟨_, rfl, rfl⟩

/-- Enqueue keeps to the limit exactly when the queue does. -/
theorem bounded_iff_of_enqueue {packet : Packet} {hdr : WifiMacHeader} (hx : Served x)
    (h : x.pre.queue.Counted) (hop : x.event.operation = .call (.enqueue packet hdr)) :
    Bounded x ↔
      (x.pre.queue.cleanup x.event.time).queue.length ≤ x.pre.queue.maxSize.toNat := by
  obtain ⟨taken, henqueue, hout⟩ := served_enqueue hx hop
  obtain ⟨hqueue, -⟩ := enqueue_queue henqueue
  have hrefused : taken = false ↔
      (x.pre.queue.cleanup x.event.time).queue.length = x.pre.queue.maxSize.toNat := by
    rw [← enqueue_eq_false_iff h packet hdr, henqueue]
  constructor
  · intro hbounded
    have hlength := hbounded.length packet hdr hop
    rw [hqueue, List.length_append] at hlength
    exact (Nat.le_add_right _ _).trans hlength
  · intro hle
    refine ⟨fun _ _ _ hfull => ?_, fun _ _ _ => ?_, fun hstate =>
      absurd hstate (ne_getQueueState hop)⟩
    · rw [hout, hrefused.mpr (le_antisymm hle hfull)]
    · rw [hqueue, List.length_append]
      cases taken with
      | false => exact hle
      | true => exact Nat.lt_of_le_of_ne hle fun heq => absurd (hrefused.mpr heq) (by decide)

/-- The report is right exactly when expired packets do not matter to it. -/
theorem bounded_iff_of_state (hx : Served x) (h : x.pre.queue.Counted)
    (hop : x.event.operation = .getQueueState) :
    Bounded x ↔ x.pre.queue.expired x.event.time = [] ∨
      x.pre.queue.queue.length ≠ x.pre.queue.maxSize.toNat ∧
        (x.pre.queue.cleanup x.event.time).queue.length ≠ x.pre.queue.maxSize.toNat := by
  have hresult := hx.2
  rw [hop] at hresult
  obtain ⟨hpost, hout⟩ := hresult
  have hreport : x.out = .state 0 ↔ x.pre.queue.queue.length = x.pre.queue.maxSize.toNat := by
    rw [hout, Reply.state.injEq, getQueueState_eq_zero_iff h]
  have hrefuse : ∀ packet hdr, (x.post.queue.enqueue x.event.time packet hdr).1 = false ↔
      (x.pre.queue.cleanup x.event.time).queue.length = x.pre.queue.maxSize.toNat := by
    rw [hpost]
    exact enqueue_eq_false_iff h
  have hcalls : ∀ c, x.event.operation ≠ .call c := fun c => by
    rw [hop]
    rintro ⟨⟩
  have hbounded : Bounded x ↔ (x.pre.queue.queue.length = x.pre.queue.maxSize.toNat ↔
      (x.pre.queue.cleanup x.event.time).queue.length = x.pre.queue.maxSize.toNat) := by
    constructor
    · intro hb
      rw [← hreport, ← hrefuse ⟨[], 0, false⟩ (Sample.macHeader 0)]
      exact hb.reports hop _ _
    · intro hiff
      refine ⟨fun _ _ hc => absurd hc (hcalls _), fun _ _ hc => absurd hc (hcalls _),
        fun _ packet hdr => ?_⟩
      rw [hreport, hrefuse, hiff]
  rw [hbounded, ← length_cleanup_eq_iff]
  omega

/-- The other calls cannot break the law. -/
theorem bounded_of_call {c : Call} (hop : x.event.operation = .call c)
    (hc : ∀ packet hdr, c ≠ .enqueue packet hdr) : Bounded x := by
  have hne : ∀ packet hdr, x.event.operation ≠ .call (.enqueue packet hdr) := by
    intro packet hdr heq
    exact hc packet hdr (Operation.call.inj (hop.symm.trans heq))
  refine ⟨fun packet hdr heq => absurd heq (hne packet hdr),
    fun packet hdr heq => absurd heq (hne packet hdr), fun hstate =>
      absurd hstate (ne_getQueueState hop)⟩

theorem bounded_iff_hasRoom (hx : Served x) (h : x.pre.queue.Counted) :
    Bounded x ↔ HasRoom x := by
  cases hop : x.event.operation with
  | getQueueState =>
    rw [bounded_iff_of_state hx h hop]
    refine ⟨fun hstate => ⟨fun _ _ hc => ?_, fun _ => hstate⟩, fun hroom => hroom.state hop⟩
    rw [hop] at hc
    cases hc
  | call c =>
    have hstate := ne_getQueueState hop
    by_cases hc : ∃ packet hdr, c = .enqueue packet hdr
    · obtain ⟨packet, hdr, rfl⟩ := hc
      rw [bounded_iff_of_enqueue hx h hop]
      exact ⟨fun hle => ⟨fun _ _ _ => hle, fun h => absurd h hstate⟩,
        fun hroom => hroom.enqueue packet hdr hop⟩
    · have hne : ∀ packet hdr, c ≠ .enqueue packet hdr := fun packet hdr heq =>
        hc ⟨packet, hdr, heq⟩
      refine ⟨fun _ => ⟨fun packet hdr heq => ?_, fun h => absurd h hstate⟩,
        fun _ => bounded_of_call hop hne⟩
      exact absurd (Operation.call.inj (hop.symm.trans heq)) (hne packet hdr)

/-! ### Runs -/

/-- A call with room keeps what holds between calls. -/
theorem served_consistent (hx : Served x) (hroom : HasRoom x) (h : x.pre.Consistent) :
    x.post.Consistent := by
  cases hop : x.event.operation with
  | getQueueState =>
    have hresult := hx.2
    rw [hop] at hresult
    rw [hresult.1]
    exact h.later hx.1
  | call c =>
    obtain ⟨out, -, hstep⟩ := step_of_served hx hop
    refine step_consistent hstep (fun packet hdr hc hlen => ?_) h
    -- a queue within the limit holds 2^32 - 1 packets only if that is the limit
    have hle := hroom.enqueue packet hdr (hop.trans (congrArg Operation.call hc))
    have hlt := x.pre.queue.maxSize.toNat_lt
    have hlen : (x.pre.queue.cleanup x.event.time).queue.length = 4294967295 := hlen
    rw [hlen] at hle
    have heq : x.pre.queue.maxSize.toNat = 4294967295 := by omega
    exact UInt32.toNat_inj.mp heq

/-- No call takes the queue above a limit that is not set too low. -/
theorem length_le_perform (hcount : s.queue.Counted) {c : Call}
    (hset : ∀ maxSize, c = .setMaxSize maxSize → s.queue.queue.length ≤ maxSize.toNat)
    (h : s.queue.queue.length ≤ s.queue.maxSize.toNat) :
    (s.perform c).1.queue.queue.length ≤ (s.perform c).1.queue.maxSize.toNat := by
  have hclean : s.cleaned.queue.queue.length ≤ s.cleaned.queue.maxSize.toNat :=
    (s.queue.sublist_cleanup s.now).length_le.trans h
  cases c with
  | enqueue packet hdr =>
    rw [perform_enqueue]
    split_ifs with hfull
    · exact hclean
    · have hne : s.cleaned.queue.queue.length ≠ s.queue.maxSize.toNat :=
        mt (Counted.size_eq_iff (hcount.cleanup s.now)).mpr hfull
      show (_ ++ [_]).length ≤ s.queue.maxSize.toNat
      rw [List.length_append, List.length_singleton]
      exact Nat.lt_of_le_of_ne hclean hne
  | dequeue =>
    rw [perform_dequeue]
    cases hq : s.cleaned.queue.queue with
    | nil => exact hclean
    | cons i rest =>
      rw [hq, List.length_cons] at hclean
      exact (Nat.le_succ _).trans hclean
  | peek => exact hclean
  | isEmpty => exact hclean
  | remove found =>
    obtain ⟨k, hk, -, hpost⟩ | ⟨-, hpost⟩ := s.perform_remove found <;> rw [hpost]
    · exact (List.eraseIdx_sublist _ _).length_le.trans h
    · exact h
  | flush => exact Nat.zero_le _
  | setMaxSize maxSize => exact hset maxSize rfl
  | setMaxDelay => exact h

/-- Between calls the count is right and the queue not above its limit. -/
structure Within (s : History) : Prop where
  consistent : s.Consistent
  length : s.queue.queue.length ≤ s.queue.maxSize.toNat

theorem Within.cleanup (h : s.Within) (now : Time) :
    (s.queue.cleanup now).queue.length ≤ s.queue.maxSize.toNat :=
  (s.queue.sublist_cleanup now).length_le.trans h.length

theorem served_within (hx : Served x) (hroom : LeavesRoom x) (h : x.pre.Within) :
    x.post.Within := by
  cases hop : x.event.operation with
  | getQueueState =>
    have hresult := hx.2
    rw [hop] at hresult
    rw [hresult.1]
    exact ⟨h.consistent.later hx.1, h.length⟩
  | call c =>
    have henqueue : ∀ packet hdr, x.event.operation = .call (.enqueue packet hdr) →
        (x.pre.queue.cleanup x.event.time).queue.length ≤ x.pre.queue.maxSize.toNat :=
      fun _ _ _ => h.cleanup x.event.time
    have hstate := ne_getQueueState hop
    refine ⟨served_consistent hx ⟨henqueue, fun hs => absurd hs hstate⟩ h.consistent, ?_⟩
    obtain ⟨out, -, -, hperform⟩ := step_of_served hx hop
    have hpost : x.post = ({ x.pre with now := x.event.time }.perform c).1 :=
      congrArg Prod.fst hperform
    rw [hpost]
    refine length_le_perform (s := { x.pre with now := x.event.time }) h.consistent.counted
      (fun maxSize hset => ?_) h.length
    rw [hset] at hop
    exact hroom maxSize hop

end

/-- In every run from an empty queue Enqueue keeps to the limit and the reported state is right
exactly when the queue has room each time; and Enqueue always finds room if the limit is never
set below the number of packets in the queue. -/
theorem bounded_iff {s u : History} {tr : List (Transition History Request Reply)}
    (hrun : Run Served s tr u) (hs : s.Initial) :
    ((∀ x ∈ tr, Bounded x) ↔ ∀ x ∈ tr, HasRoom x) ∧
      ((∀ x ∈ tr, LeavesRoom x) → ∀ x ∈ tr, x.event.operation ≠ .getQueueState → Bounded x) := by
  constructor
  · exact hrun.forall_iff (I := Consistent) (fun x hx h => bounded_iff_hasRoom hx h.counted)
      (fun x hx hroom h => served_consistent hx hroom h) hs.consistent
  · intro hroom x hx hop
    have hstart : s.Within := ⟨hs.consistent, by rw [hs.queue]; exact Nat.zero_le _⟩
    have hinv := hrun.invariant_of (I := Within) (fun x hx hC h => served_within hx hC h) hroom
      hstart
    have hpre := hinv.2 x hx
    exact (bounded_iff_hasRoom (hrun.step_of_mem x hx) hpre.consistent.counted).mpr
      ⟨fun _ _ _ => hpre.cleanup x.event.time, fun h => absurd h hop⟩

/-- A queue of one packet, which is full. -/
def full : TdmaMacQueue := { queue := [Sample.item 8], size := 1, maxSize := 1 }

/-- The packet comes in. -/
def arrival : Transition History Request Reply where
  pre := ⟨0, { maxSize := 1 }, {}⟩
  event := ⟨0, .call (.enqueue (Sample.item 8).packet (Sample.item 8).hdr)⟩
  out := .answer (.flag true)
  post := ⟨0, full, { accepted := [Sample.item 8] }⟩

/-- The MAC is asked for the state of the queue. -/
def enquiry (time : Time) : Transition History Request Reply where
  pre := arrival.post
  event := ⟨time, .getQueueState⟩
  out := .state 0
  post := { arrival.post with now := time }

theorem run_enquiry (time : Time) (h : 0 ≤ time) :
    Run Served arrival.pre [arrival, enquiry time] (enquiry time).post :=
  .cons rfl ⟨le_rfl, .flag true, rfl, rfl⟩ (.cons rfl ⟨h, rfl, rfl⟩ (.nil _))

/-- In time the report is right. -/
theorem bounded_iff_enquiry : Bounded arrival ∧ Bounded (enquiry 5) := by
  have hroom : ∀ x ∈ [arrival, enquiry 5], HasRoom x := by
    intro x hx
    obtain rfl | rfl := List.mem_pair.mp hx
    · exact ⟨fun _ _ _ => by decide, by rintro ⟨⟩⟩
    · exact ⟨by rintro _ _ ⟨⟩, fun _ => .inl rfl⟩
  have hbounded := (bounded_iff (run_enquiry 5 (by decide)) ⟨rfl, rfl, rfl, rfl⟩).1.mpr hroom
  exact ⟨hbounded arrival (by simp), hbounded (enquiry 5) (by simp)⟩

/-- A queue whose limit is set to 0 takes a second packet, and one full of expired packets is
reported as full. -/
theorem not_bounded_enquiry :
    (full.setMaxSize 0).enqueue 0 (Sample.item 8).packet (Sample.item 8).hdr =
        (true, { queue := [Sample.item 8, Sample.item 8], size := 2, maxSize := 0 }) ∧
      TdmaCentralMac.getQueueState full = 0 ∧
      (full.enqueue (Time.seconds 20) (Sample.item 8).packet (Sample.item 8).hdr).1 = true ∧
      ¬ ∀ (s u : History) (tr : List (Transition History Request Reply)),
        s.Initial → Run Served s tr u → ∀ x ∈ tr, Bounded x := by
  refine ⟨rfl, rfl, rfl, fun h => ?_⟩
  have hbounded := h _ _ _ ⟨rfl, rfl, rfl, rfl⟩
    (run_enquiry (Time.seconds 20) (by decide)) (enquiry (Time.seconds 20)) (by simp)
  have hreport := hbounded.reports rfl (Sample.item 8).packet (Sample.item 8).hdr
  exact absurd (hreport.mp rfl) (by decide)

end History

end TdmaMacQueue

end SAeroRP
