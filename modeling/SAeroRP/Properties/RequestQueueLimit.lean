import SAeroRP.Properties.RequestQueueHistory

/-! The limit of the queue of waiting packets while it is being changed. Enqueue looks for a
queue that is exactly full, so it relies on a limit that is neither zero nor below the number
of entries. -/

namespace SAeroRP

open Library

namespace RequestQueue

section
variable {now now' : Time} {q q' : RequestQueue} {e : QueueEntry} {added : Bool}
  {dropped : List QueueEntry} {f : Fault}

/-- The one fault of Enqueue: an empty queue with no room. -/
theorem enqueue_error (h : q.enqueue now e = .error f) :
    f = .emptyFront ∧ q.live now = [] ∧ q.maxLen = 0 := by
  unfold enqueue at h
  rw [purge_eq] at h
  dsimp only at h
  split_ifs at h with hqueued hfull
  split at h
  · rename_i hentries
    cases h
    have hlive : q.live now = [] := hentries
    rw [hlive] at hfull
    exact ⟨rfl, hlive, hfull.symm⟩
  · cases h

theorem maxLen_enqueue (h : q.enqueue now e = .ok (added, q', dropped)) : q'.maxLen = q.maxLen := by
  obtain ⟨-, -, rfl, -⟩ | ⟨-, -, ⟨front, rest, -, -, rfl, -⟩ | ⟨-, rfl, -⟩⟩ := enqueue_cases h
  · rfl
  · rfl
  · rfl

/-- A queue that is not above its limit stays so. -/
theorem length_enqueue_le (h : q.enqueue now e = .ok (added, q', dropped))
    (hle : (q.live now).length ≤ q.maxLen) : q'.entries.length ≤ q.maxLen := by
  obtain ⟨-, -, rfl, -⟩ | ⟨-, -, ⟨front, rest, hfull, hlive, rfl, -⟩ | ⟨hroom, rfl, -⟩⟩ :=
    enqueue_cases h
  · exact hle
  · rw [hlive, List.length_cons] at hfull
    rw [List.length_append, List.length_singleton]
    exact hfull.le
  · rw [List.length_append, List.length_singleton]
    exact Nat.lt_of_le_of_ne hle hroom

/-- What has expired stays expired. -/
theorem isExpired_of_le (h : now ≤ now') (he : isExpired now e = true) :
    isExpired now' e = true :=
  decide_eq_true ((Int.sub_le_sub_left h _).trans_lt (of_decide_eq_true he))

theorem length_live_le (h : now ≤ now') (q : RequestQueue) :
    (q.live now').length ≤ (q.live now).length := by
  refine (List.monotone_filter_right q.entries fun e he => ?_).length_le
  rw [Bool.not_eq_true', Bool.eq_false_iff] at he ⊢
  exact mt (isExpired_of_le h) he

end

namespace History

/-! ### Calls and settings -/

inductive Operation where
  | call (c : Call)
  | setMaxQueueLen (len : UInt32)
  | setQueueTimeout (t : Time)

def operate (s : History) : Operation → Except Fault (History × Answer)
  | .call c => s.perform c
  | .setMaxQueueLen len => .ok ({ s with queue := s.queue.setMaxQueueLen len }, {})
  | .setQueueTimeout t => .ok ({ s with queue := s.queue.setQueueTimeout t }, {})

structure Request where
  time : Time
  operation : Operation

/-- An operation, or its fault, after which the queue is taken to be as before. -/
def Served (x : Transition History Request (Except Fault Answer)) : Prop :=
  x.pre.now ≤ x.event.time ∧
    match { x.pre with now := x.event.time }.operate x.event.operation with
    | .ok (t, out) => x.post = t ∧ x.out = .ok out
    | .error f => x.post = { x.pre with now := x.event.time } ∧ x.out = .error f

/-- An Enqueue that accepts leaves no more entries than the limit. -/
structure Within (x : Transition History Request (Except Fault Answer)) : Prop where
  front : x.out ≠ .error .emptyFront
  length : ∀ entry out, x.event.operation = .call (.enqueue entry) → x.out = .ok out →
    out.flag = true → x.post.queue.entries.length ≤ x.pre.queue.maxLen
  refuses : ∀ entry out, x.event.operation = .call (.enqueue entry) → x.out = .ok out →
    x.pre.queue.maxLen = 0 → out.flag = false

/-- A new entry meets a limit that is neither zero nor below the number of entries. -/
def HasRoom (x : Transition History Request (Except Fault Answer)) : Prop :=
  ∀ entry, x.event.operation = .call (.enqueue entry) →
    (∀ i ∈ x.pre.queue.live x.event.time, ¬ Same i entry) →
      1 ≤ x.pre.queue.maxLen ∧ (x.pre.queue.live x.event.time).length ≤ x.pre.queue.maxLen

/-- A limit that is set is neither zero nor below the number of entries. -/
def LeavesRoom (x : Transition History Request (Except Fault Answer)) : Prop :=
  ∀ len, x.event.operation = .setMaxQueueLen len →
    1 ≤ len.toNat ∧ (x.pre.queue.live x.event.time).length ≤ len.toNat

section
variable {s t : History} {out : Answer} {x : Transition History Request (Except Fault Answer)}

theorem exists_operate {op : Operation} (h : ∀ entry, op ≠ .call (.enqueue entry)) :
    ∃ r, s.operate op = .ok r := by
  cases op with
  | call c =>
    cases c with
    | enqueue entry => exact absurd rfl (h entry)
    | dequeue | dropPacketWithDst | find | getSize => exact ⟨_, rfl⟩
  | setMaxQueueLen | setQueueTimeout => exact ⟨_, rfl⟩

/-- Only Enqueue can go wrong. -/
theorem within_of_ne (hx : Served x)
    (h : ∀ entry, x.event.operation ≠ .call (.enqueue entry)) : Within x := by
  refine ⟨?_, fun entry _ hop => absurd hop (h entry), fun entry _ hop => absurd hop (h entry)⟩
  obtain ⟨r, hr⟩ := exists_operate (s := { x.pre with now := x.event.time }) h
  have hout := hx.2
  rw [hr] at hout
  rw [hout.2]
  rintro ⟨⟩

theorem served_enqueue {entry : QueueEntry} (hx : Served x)
    (hop : x.event.operation = .call (.enqueue entry)) :
    (∃ f, x.pre.queue.enqueue x.event.time entry = .error f ∧ x.out = .error f) ∨
      ∃ out errors, x.pre.queue.enqueue x.event.time entry = .ok (out.flag, x.post.queue, errors) ∧
        x.out = .ok out := by
  have hresult := hx.2
  rw [hop] at hresult
  simp only [operate, perform] at hresult
  cases henqueue : x.pre.queue.enqueue x.event.time entry with
  | error f =>
    rw [henqueue] at hresult
    exact .inl ⟨f, rfl, hresult.2⟩
  | ok r =>
    rw [henqueue] at hresult
    obtain ⟨hpost, hout⟩ := hresult
    refine .inr ⟨_, r.2.2, ?_, hout⟩
    rw [hpost]

theorem within_iff_of_ok {entry : QueueEntry} (hop : x.event.operation = .call (.enqueue entry))
    (hout : x.out = .ok out) : Within x ↔ (out.flag = true →
      x.post.queue.entries.length ≤ x.pre.queue.maxLen ∧ x.pre.queue.maxLen ≠ 0) := by
  constructor
  · intro h hflag
    refine ⟨h.length entry out hop hout hflag, fun hzero => ?_⟩
    rw [h.refuses entry out hop hout hzero] at hflag
    cases hflag
  · intro h
    refine ⟨?_, fun _ out' _ hout' hflag => ?_, fun _ out' _ hout' hzero => ?_⟩
    · rw [hout]
      rintro ⟨⟩
    · obtain rfl := Except.ok.inj (hout.symm.trans hout')
      exact (h hflag).1
    · obtain rfl := Except.ok.inj (hout.symm.trans hout')
      exact Bool.eq_false_iff.mpr fun hflag => (h hflag).2 hzero

/-- Enqueue stays within the limit exactly when there is room. -/
theorem within_iff_of_enqueue {entry : QueueEntry} (hx : Served x)
    (hop : x.event.operation = .call (.enqueue entry)) : Within x ↔
      ((∀ i ∈ x.pre.queue.live x.event.time, ¬ Same i entry) →
        1 ≤ x.pre.queue.maxLen ∧
          (x.pre.queue.live x.event.time).length ≤ x.pre.queue.maxLen) := by
  obtain ⟨f, henqueue, hout⟩ | ⟨out, errors, henqueue, hout⟩ := served_enqueue hx hop
  · obtain ⟨rfl, hlive, hlen⟩ := enqueue_error henqueue
    rw [hlive, hlen]
    exact ⟨fun h => absurd hout h.front, fun h => absurd (h (by simp)).1 (by decide)⟩
  · rw [within_iff_of_ok hop hout]
    obtain ⟨hflag, ⟨i, hi, hs⟩, -⟩ | ⟨hflag, hnew, ⟨front, rest, hfull, hlive, -⟩ |
      ⟨hroom, hq, -⟩⟩ := enqueue_cases henqueue
    · rw [hflag]
      exact ⟨fun _ hnew => absurd hs (hnew i hi), fun _ h => absurd h (by decide)⟩
    · have hpos : 1 ≤ x.pre.queue.maxLen := by
        rw [← hfull, hlive]
        exact Nat.succ_pos _
      exact ⟨fun _ _ => ⟨hpos, hfull.le⟩, fun _ _ =>
        ⟨length_enqueue_le henqueue hfull.le, Nat.one_le_iff_ne_zero.mp hpos⟩⟩
    · have hlen : x.post.queue.entries.length =
          (x.pre.queue.live x.event.time).length + 1 := by
        rw [hq]
        exact List.length_append
      rw [hlen]
      constructor
      · intro h _
        have hle := (h hflag).1
        omega
      · intro h _
        have hle := h hnew
        omega

theorem within_iff_hasRoom (hx : Served x) : Within x ↔ HasRoom x := by
  by_cases hop : ∃ entry, x.event.operation = .call (.enqueue entry)
  · obtain ⟨entry, hop⟩ := hop
    rw [within_iff_of_enqueue hx hop]
    constructor
    · intro h entry' hop'
      obtain rfl : entry = entry' := Call.enqueue.inj (Operation.call.inj (hop.symm.trans hop'))
      exact h
    · exact fun h => h entry hop
  · have hne : ∀ entry, x.event.operation ≠ .call (.enqueue entry) := fun entry h => hop ⟨entry, h⟩
    exact ⟨fun _ entry h => absurd h (hne entry), fun _ => within_of_ne hx hne⟩

/-! ### Runs -/

/-- The limit is neither zero nor below the number of entries. -/
structure Roomy (s : History) : Prop where
  maxLen : 1 ≤ s.queue.maxLen
  length : (s.queue.live s.now).length ≤ s.queue.maxLen

theorem Roomy.at (h : s.Roomy) {now : Time} (hle : s.now ≤ now) : ({ s with now } : History).Roomy :=
  ⟨h.maxLen, (length_live_le hle s.queue).trans h.length⟩

/-- A queue of no more entries than the limit. -/
theorem roomy_of_length (hlen : 1 ≤ s.queue.maxLen)
    (h : s.queue.entries.length ≤ s.queue.maxLen) : s.Roomy :=
  ⟨hlen, (s.queue.sublist_live s.now).length_le.trans h⟩

theorem Roomy.perform (h : s.Roomy) {c : Call} (hp : s.perform c = .ok (t, out)) : t.Roomy := by
  cases c with
  | enqueue entry =>
    obtain ⟨henqueue, -, -, -⟩ := perform_enqueue hp
    have hmax := maxLen_enqueue henqueue
    refine roomy_of_length ?_ ?_
    · rw [hmax]
      exact h.maxLen
    · rw [hmax]
      exact length_enqueue_le henqueue h.length
  | dequeue dst =>
    cases hp
    exact roomy_of_length h.maxLen ((List.eraseP_sublist.length_le).trans h.length)
  | dropPacketWithDst dst =>
    cases hp
    exact roomy_of_length h.maxLen ((List.filter_sublist.length_le).trans h.length)
  | find dst =>
    cases hp
    exact h
  | getSize =>
    cases hp
    exact roomy_of_length h.maxLen h.length

/-- The limit stays as it should as long as it is not set too low. -/
theorem step_roomy (hx : Served x) (hroom : LeavesRoom x) (h : x.pre.Roomy) : x.post.Roomy := by
  have hnow := h.at hx.1
  have hresult := hx.2
  cases hop : x.event.operation with
  | call c =>
    rw [hop] at hresult
    simp only [operate] at hresult
    cases hp : ({ x.pre with now := x.event.time } : History).perform c with
    | error f =>
      rw [hp] at hresult
      rw [hresult.1]
      exact hnow
    | ok r =>
      rw [hp] at hresult
      rw [hresult.1]
      exact hnow.perform hp
  | setMaxQueueLen len =>
    rw [hop] at hresult
    rw [hresult.1]
    exact ⟨(hroom len hop).1, (hroom len hop).2⟩
  | setQueueTimeout t =>
    rw [hop] at hresult
    rw [hresult.1]
    exact ⟨hnow.maxLen, hnow.length⟩

theorem Roomy.hasRoom (h : x.pre.Roomy) (hx : Served x) : HasRoom x := fun _ _ _ =>
  ⟨h.maxLen, (h.at hx.1).length⟩

end

/-- In every run the operations stay within the limit exactly when every new entry meets one
with room, which it does if the limit is never set to zero or below the number of entries. -/
theorem enqueue_within {s u : History}
    {tr : List (Transition History Request (Except Fault Answer))} (hrun : Run Served s tr u) :
    ((∀ x ∈ tr, Within x) ↔ ∀ x ∈ tr, HasRoom x) ∧
      (s.queue.entries = [] → 1 ≤ s.queue.maxLen → (∀ x ∈ tr, LeavesRoom x) →
        ∀ x ∈ tr, Within x) := by
  have hstep : ∀ x ∈ tr, (Within x ↔ HasRoom x) := fun x hx =>
    within_iff_hasRoom (hrun.step_of_mem x hx)
  refine ⟨forall₂_congr hstep, fun hentries hlen hroom x hx => (hstep x hx).mpr ?_⟩
  have hs : s.Roomy := roomy_of_length hlen (by rw [hentries]; exact Nat.zero_le _)
  have hinv := hrun.invariant_of (fun x hx hC h => step_roomy hx hC h) hroom hs
  exact (hinv.2 x hx).hasRoom (hrun.step_of_mem x hx)

/-- An entry is accepted by a queue whose limit has been lowered to one. -/
theorem enqueue_within_lowered :
    let entry : QueueEntry := ⟨⟨[], 1, false⟩, ⟨1, 2⟩, 0, 0, 0⟩
    let waiting : QueueEntry := ⟨⟨[], 1, false⟩, ⟨1, 2⟩, 0, 0, Time.seconds 1⟩
    let queue : RequestQueue := ⟨[], 1, Time.seconds 1⟩
    let full : History := ⟨0, { queue with entries := [waiting] }, { accepted := [waiting] }⟩
    let first : Transition History Request (Except Fault Answer) :=
      ⟨⟨0, { queue with maxLen := 5 }, {}⟩, ⟨0, .setMaxQueueLen 1⟩, .ok {}, ⟨0, queue, {}⟩⟩
    let second : Transition History Request (Except Fault Answer) :=
      ⟨⟨0, queue, {}⟩, ⟨0, .call (.enqueue entry)⟩, .ok {}, full⟩
    Within first ∧ Within second := by
  intro entry waiting queue full first second
  have hrun : Run Served first.pre [first, second] second.post :=
    .cons rfl ⟨le_rfl, rfl, rfl⟩ (.cons rfl ⟨le_rfl, rfl, rfl⟩ (.nil _))
  have hroom : ∀ x ∈ [first, second], LeavesRoom x := by
    intro x hx len hlen
    obtain rfl | rfl := List.mem_pair.mp hx
    · cases hlen
      decide
    · cases hlen
  have hwithin := (enqueue_within hrun).2 rfl (by decide) hroom
  exact ⟨hwithin first (by simp), hwithin second (by simp)⟩

/-- With a limit of zero the front of the empty queue is taken, and with one below the number
of entries the queue grows. -/
theorem enqueue_not_within :
    let a : QueueEntry := ⟨⟨[], 1, false⟩, ⟨1, 2⟩, 0, 0, Time.seconds 1⟩
    let b : QueueEntry := ⟨⟨[], 2, false⟩, ⟨1, 2⟩, 0, 0, Time.seconds 1⟩
    let c : QueueEntry := ⟨⟨[], 3, false⟩, ⟨1, 2⟩, 0, 0, Time.seconds 1⟩
    let queue : RequestQueue := ⟨[a, b], 2, Time.seconds 1⟩
    (queue.setMaxQueueLen 1).enqueue 0 c = .ok (true, ⟨[a, b, c], 1, Time.seconds 1⟩, []) ∧
      ¬ ∀ (s u : History) (tr : List (Transition History Request (Except Fault Answer))),
        s.queue.entries = [] → Run Served s tr u → ∀ x ∈ tr, Within x := by
  intro a b c queue
  refine ⟨rfl, fun h => ?_⟩
  let empty : History := ⟨0, ⟨[], 5, Time.seconds 1⟩, {}⟩
  let closed : History := ⟨0, ⟨[], 0, Time.seconds 1⟩, {}⟩
  let first : Transition History Request (Except Fault Answer) :=
    ⟨empty, ⟨0, .setMaxQueueLen 0⟩, .ok {}, closed⟩
  let second : Transition History Request (Except Fault Answer) :=
    ⟨closed, ⟨0, .call (.enqueue a)⟩, .error .emptyFront, closed⟩
  have hrun : Run Served empty [first, second] closed :=
    .cons rfl ⟨le_rfl, rfl, rfl⟩ (.cons rfl ⟨le_rfl, rfl, rfl⟩ (.nil _))
  exact (h empty closed [first, second] rfl hrun second (by simp)).front rfl

end History

end RequestQueue

end SAeroRP
