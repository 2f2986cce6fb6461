import SAeroRP.Tables.QueueHistory

/-! The history law of the queue of waiting packets. Every call first drops what has
expired, except the search, which drops nothing. What is left is in the order of
acceptance and holds no packet twice for one destination, so the front is the oldest
entry and the first entry for a destination the earliest. -/

namespace SAeroRP

open Library

namespace RequestQueue

/-- The entries are for the same packet and the same destination. -/
def Same (a b : QueueEntry) : Prop :=
  a.packet.uid = b.packet.uid ∧ a.header.destination = b.header.destination

instance : DecidableRel Same := fun _ _ => inferInstanceAs (Decidable (_ ∧ _))

/-- The entries that have not expired, and those that have. -/
def live (now : Time) (q : RequestQueue) : List QueueEntry :=
  q.entries.filter fun e => !isExpired now e

def outdated (now : Time) (q : RequestQueue) : List QueueEntry := q.entries.filter (isExpired now)

section
variable {now : Time} {q q' : RequestQueue} {e : QueueEntry} {added : Bool}
  {dropped : List QueueEntry}

theorem purge_eq (now : Time) (q : RequestQueue) :
    q.purge now = ({ q with entries := q.live now }, q.outdated now) := rfl

theorem sublist_live (now : Time) (q : RequestQueue) : (q.live now).Sublist q.entries :=
  List.filter_sublist

/-- What Enqueue does: it refuses an entry that is there, makes room in a full queue by
dropping the front, or has room. -/
theorem enqueue_cases (h : q.enqueue now e = .ok (added, q', dropped)) :
    (added = false ∧ (∃ i ∈ q.live now, Same i e) ∧ q' = { q with entries := q.live now } ∧
        dropped = q.outdated now) ∨
      (added = true ∧ (∀ i ∈ q.live now, ¬ Same i e) ∧
        ((∃ front rest, (q.live now).length = q.maxLen ∧ q.live now = front :: rest ∧
            q' = { q with entries := rest ++ [e.setExpireTime now q.queueTimeout] } ∧
            dropped = q.outdated now ++ [front]) ∨
          ((q.live now).length ≠ q.maxLen ∧
            q' = { q with entries := q.live now ++ [e.setExpireTime now q.queueTimeout] } ∧
            dropped = q.outdated now))) := by
  have hany : ((q.live now).any fun i => decide (i.packet.uid = e.packet.uid ∧
      i.header.destination = e.header.destination)) = true ↔ ∃ i ∈ q.live now, Same i e := by
    simp [Same]
  unfold enqueue at h
  rw [purge_eq] at h
  dsimp only at h
  split_ifs at h with hqueued hfull
  · cases h
    exact .inl ⟨rfl, hany.mp hqueued, rfl, rfl⟩
  · have hnew : ∀ i ∈ q.live now, ¬ Same i e := fun i hi hs => hqueued (hany.mpr ⟨i, hi, hs⟩)
    split at h
    · cases h
    · rename_i front rest hentries
      cases h
      exact .inr ⟨rfl, hnew, .inl ⟨front, rest, hfull, hentries, rfl, rfl⟩⟩
  · have hnew : ∀ i ∈ q.live now, ¬ Same i e := fun i hi hs => hqueued (hany.mpr ⟨i, hi, hs⟩)
    cases h
    exact .inr ⟨rfl, hnew, .inr ⟨hfull, rfl, rfl⟩⟩

/-- A queue with room for an entry can always make room. -/
theorem exists_enqueue (hlen : 1 ≤ q.maxLen) (now : Time) (e : QueueEntry) :
    ∃ r, q.enqueue now e = .ok r := by
  unfold enqueue
  rw [purge_eq]
  dsimp only
  split_ifs with hqueued hfull
  · exact ⟨_, rfl⟩
  · cases hentries : q.live now with
    | nil =>
      rw [hentries] at hfull
      rw [← hfull] at hlen
      exact absurd hlen (by decide)
    | cons front rest => exact ⟨_, rfl⟩
  · exact ⟨_, rfl⟩

end

namespace History

/-- Nothing has been called on the empty queue, which has room for an entry. -/
structure Initial (s : History) : Prop where
  entries : s.queue.entries = []
  maxLen : 1 ≤ s.queue.maxLen
  ledger : s.ledger = {}

/-! ### Law -/

/-- Enqueue takes the entry in unless it is there, and drops the oldest entry that has not
expired if the queue is full, and no other. -/
structure Enqueues (now : Time) (entry : QueueEntry) (q q' : RequestQueue) (out : Answer) :
    Prop where
  flag : out.flag = true ↔ ∀ i ∈ q.live now, ¬ Same i entry
  entries : q'.entries =
    if out.flag then
      (if (q.live now).length = q.maxLen then (q.live now).tail else q.live now) ++
        [entry.setExpireTime now q.queueTimeout]
    else q.live now
  errors : out.errors = q.outdated now ++
    if out.flag = true ∧ (q.live now).length = q.maxLen then (q.live now).take 1 else []

/-- Dequeue returns the earliest entry for the destination that has not expired, and false
if there is none. -/
structure Dequeues (now : Time) (dst : Ipv4Address) (q : RequestQueue) (out : Answer) : Prop where
  flag : out.flag = true ↔ out.entry ≠ none
  none_iff : out.entry = none ↔ ∀ e ∈ q.live now, e.header.destination ≠ dst
  some_iff : ∀ e, out.entry = some e ↔ ∃ earlier later, q.live now = earlier ++ e :: later ∧
    (∀ i ∈ earlier, i.header.destination ≠ dst) ∧ e.header.destination = dst

/-- What a call does right. -/
structure Lawful (x : Transition History Event Answer) : Prop where
  unique : x.post.queue.entries.Pairwise fun a b => ¬ Same a b
  books : x.post.ledger.Holds x.post.queue.entries
  returned : x.post.ledger.leftBy .returned = x.pre.ledger.leftBy .returned ++ x.out.entry.toList
  callbacks : x.post.ledger.leftBy .errorCallback =
    x.pre.ledger.leftBy .errorCallback ++ x.out.errors
  enqueues : ∀ entry, x.event.call = .enqueue entry →
    Enqueues x.event.time entry x.pre.queue x.post.queue x.out ∧
      x.post.ledger.accepted = x.pre.ledger.accepted ++
        if x.out.flag then [entry.setExpireTime x.event.time x.pre.queue.queueTimeout] else []
  dequeues : ∀ dst, x.event.call = .dequeue dst →
    Dequeues x.event.time dst x.pre.queue x.out

/-- What holds between calls. -/
structure Consistent (s : History) : Prop where
  unique : s.queue.entries.Pairwise fun a b => ¬ Same a b
  books : s.ledger.Holds s.queue.entries
  maxLen : 1 ≤ s.queue.maxLen

theorem Initial.consistent {s : History} (h : s.Initial) : s.Consistent where
  unique := by rw [h.entries]; exact .nil
  books := by rw [h.entries, h.ledger]; exact Ledger.holds_nil
  maxLen := h.maxLen

/-! ### Calls -/

section
variable {s t : History} {out : Answer}

/-- The books after the expired entries are dropped. -/
theorem Consistent.books_live (h : s.Consistent) :
    (s.ledger.leave .errorCallback (s.queue.outdated s.now)).Holds (s.queue.live s.now) :=
  h.books.leave_filter .errorCallback (isExpired s.now)

theorem Consistent.unique_live (h : s.Consistent) :
    (s.queue.live s.now).Pairwise fun a b => ¬ Same a b :=
  h.unique.sublist (s.queue.sublist_live s.now)

theorem perform_enqueue {entry : QueueEntry} (hp : s.perform (.enqueue entry) = .ok (t, out)) :
    s.queue.enqueue s.now entry = .ok (out.flag, t.queue, out.errors) ∧ out.entry = none ∧
      t.now = s.now ∧ t.ledger = (if out.flag then
        s.ledger.accept (entry.setExpireTime s.now s.queue.queueTimeout) else s.ledger).leave
          .errorCallback out.errors := by
  obtain ⟨⟨flag, queue, errors⟩, henqueue, hp⟩ := bind_eq_ok.mp hp
  cases hp
  exact ⟨henqueue, rfl, rfl, rfl⟩

theorem perform_dequeue {dst : Ipv4Address} (hp : s.perform (.dequeue dst) = .ok (t, out)) :
    out = ⟨(s.queue.dequeue s.now dst).1.isSome, (s.queue.dequeue s.now dst).1, 0,
      (s.queue.dequeue s.now dst).2.2⟩ := by
  cases hp
  rfl

/-- A new entry is the same as none that is there. -/
theorem unique_append {l : List QueueEntry} {entry e : QueueEntry}
    (hl : l.Pairwise fun a b => ¬ Same a b) (hnew : ∀ i ∈ l, ¬ Same i entry)
    (he : ∀ i, Same i e ↔ Same i entry) : (l ++ [e]).Pairwise fun a b => ¬ Same a b := by
  rw [List.pairwise_append]
  refine ⟨hl, List.pairwise_singleton _ _, fun i hi j hj => ?_⟩
  rw [List.mem_singleton.mp hj, he]
  exact hnew i hi

/-- Enqueue does what it should to the queue. -/
theorem enqueues_enqueue {now : Time} {entry : QueueEntry} {q q' : RequestQueue}
    (h : q.enqueue now entry = .ok (out.flag, q', out.errors)) : Enqueues now entry q q' out := by
  obtain ⟨hflag, ⟨i, hi, hs⟩, hq, herrors⟩ | ⟨hflag, hnew, ⟨front, rest, hfull, hlive, hq, herrors⟩ |
    ⟨hroom, hq, herrors⟩⟩ := enqueue_cases h
  · refine ⟨?_, ?_, ?_⟩
    · rw [hflag]
      exact ⟨fun h => absurd h (by decide), fun hall => absurd hs (hall i hi)⟩
    · rw [hq, hflag]
      rfl
    · rw [hflag, herrors]
      simp
  · refine ⟨?_, ?_, ?_⟩
    · rw [hflag]
      exact ⟨fun _ => hnew, fun _ => rfl⟩
    · rw [hq, hflag, if_pos rfl, if_pos hfull, hlive]
      rfl
    · rw [herrors, if_pos ⟨hflag, hfull⟩, hlive]
      rfl
  · refine ⟨?_, ?_, ?_⟩
    · rw [hflag]
      exact ⟨fun _ => hnew, fun _ => rfl⟩
    · rw [hq, hflag, if_pos rfl, if_neg hroom]
    · rw [herrors, if_neg fun hc => hroom hc.2, List.append_nil]

/-- A new entry is taken in behind those that are kept, and the others leave. -/
theorem Consistent.accept (h : s.Consistent) {entry : QueueEntry} (timeout : Time)
    {kept gone : List QueueEntry} (hlive : s.queue.live s.now = gone ++ kept)
    (hnew : ∀ i ∈ kept, ¬ Same i entry) :
    (kept ++ [entry.setExpireTime s.now timeout]).Pairwise (fun a b => ¬ Same a b) ∧
      ((s.ledger.accept (entry.setExpireTime s.now timeout)).leave .errorCallback
        (s.queue.outdated s.now ++ gone)).Holds (kept ++ [entry.setExpireTime s.now timeout]) := by
  have he : ∀ i, Same i (entry.setExpireTime s.now timeout) ↔ Same i entry := fun _ => Iff.rfl
  have hpurge := s.queue.perm_purge s.now
  rw [purge_eq] at hpurge
  have hkept : kept.Sublist (s.queue.live s.now) := hlive ▸ List.sublist_append_right gone kept
  refine ⟨unique_append (h.unique_live.sublist hkept) hnew he, ?_⟩
  refine (h.books.accept _).leave .errorCallback ?_ ?_
  · have hsplit : s.queue.entries.Perm (s.queue.outdated s.now ++ gone ++ kept) := by
      rw [List.append_assoc, ← hlive]
      exact hpurge.symm
    rw [← List.append_assoc]
    exact hsplit.append_right _
  · exact (hkept.trans (s.queue.sublist_live s.now)).append (List.Sublist.refl _)

theorem Consistent.enqueue (h : s.Consistent) {entry : QueueEntry}
    (hp : s.perform (.enqueue entry) = .ok (t, out)) : t.Consistent := by
  obtain ⟨henqueue, -, -, hledger⟩ := perform_enqueue hp
  obtain ⟨hflag, -, hq, herrors⟩ | ⟨hflag, hnew, ⟨front, rest, -, hlive, hq, herrors⟩ |
    ⟨-, hq, herrors⟩⟩ := enqueue_cases henqueue
  · rw [hflag, herrors] at hledger
    exact ⟨by rw [hq]; exact h.unique_live, by rw [hq, hledger]; exact h.books_live,
      by rw [hq]; exact h.maxLen⟩
  · rw [hflag, herrors] at hledger
    rw [hlive] at hnew
    have hsplit : s.queue.live s.now = [front] ++ rest := hlive
    obtain ⟨hunique, hbooks⟩ := h.accept s.queue.queueTimeout hsplit
      fun i hi => hnew i (List.mem_cons_of_mem _ hi)
    exact ⟨by rw [hq]; exact hunique, by rw [hq, hledger]; exact hbooks, by rw [hq]; exact h.maxLen⟩
  · rw [hflag, herrors] at hledger
    obtain ⟨hunique, hbooks⟩ := h.accept s.queue.queueTimeout (List.nil_append _).symm hnew
    rw [List.append_nil] at hbooks
    exact ⟨by rw [hq]; exact hunique, by rw [hq, hledger]; exact hbooks, by rw [hq]; exact h.maxLen⟩

theorem Consistent.dequeue (h : s.Consistent) (dst : Ipv4Address) :
    let r := s.queue.dequeue s.now dst
    (⟨s.now, r.2.1, (s.ledger.leave .errorCallback r.2.2).leave .returned r.1.toList⟩ :
      History).Consistent := by
  have hfound := perm_find?_eraseP (fun e : QueueEntry => decide (e.header.destination = dst))
    (s.queue.live s.now)
  have hsub : ((s.queue.live s.now).eraseP fun e => decide (e.header.destination = dst)).Sublist
      (s.queue.live s.now) := List.eraseP_sublist
  exact ⟨h.unique_live.sublist hsub, h.books_live.leave .returned hfound.symm hsub, h.maxLen⟩

/-- The first entry for the destination among those that have not expired. -/
theorem dequeues_dequeue (now : Time) (dst : Ipv4Address) (q : RequestQueue) :
    Dequeues now dst q ⟨(q.dequeue now dst).1.isSome, (q.dequeue now dst).1, 0,
      (q.dequeue now dst).2.2⟩ := by
  have hfind : (q.dequeue now dst).1 =
      (q.live now).find? fun e => decide (e.header.destination = dst) := rfl
  refine ⟨?_, ?_, fun e => ?_⟩
  · show (q.dequeue now dst).1.isSome = true ↔ (q.dequeue now dst).1 ≠ none
    rw [Option.isSome_iff_ne_none]
  · show (q.dequeue now dst).1 = none ↔ _
    rw [hfind, List.find?_eq_none]
    simp
  · show (q.dequeue now dst).1 = some e ↔ _
    rw [hfind, List.find?_eq_some_iff_append]
    simp only [decide_eq_true_eq, Bool.not_eq_true', decide_eq_false_iff_not]
    constructor
    · rintro ⟨hdst, earlier, later, hq, hnot⟩
      exact ⟨earlier, later, hq, hnot, hdst⟩
    · rintro ⟨earlier, later, hq, hnot, hdst⟩
      exact ⟨hdst, earlier, later, hq, hnot⟩

theorem Consistent.dropPacketWithDst (h : s.Consistent) (dst : Ipv4Address) :
    let r := s.queue.dropPacketWithDst s.now dst
    (⟨s.now, r.1, s.ledger.leave .errorCallback r.2⟩ : History).Consistent := by
  let forDst := fun e : QueueEntry => decide (e.header.destination = dst)
  have hsub : ((s.queue.live s.now).filter fun e => !forDst e).Sublist s.queue.entries :=
    List.filter_sublist.trans (s.queue.sublist_live s.now)
  have hsplit := List.filter_append_perm forDst (s.queue.live s.now)
  have hpurge := s.queue.perm_purge s.now
  refine ⟨h.unique.sublist hsub, h.books.leave .errorCallback ?_ hsub, h.maxLen⟩
  refine (hpurge.symm.trans (hsplit.symm.append_left _)).trans ?_
  rw [← List.append_assoc]
  exact .refl _

/-- Every call has a result, keeps what holds between calls, and adds to the books what it
hands out and what it gives to error callbacks. -/
theorem Consistent.perform (h : s.Consistent) {c : Call} (hp : s.perform c = .ok (t, out)) :
    t.Consistent ∧
      t.ledger.leftBy .returned = s.ledger.leftBy .returned ++ out.entry.toList ∧
      t.ledger.leftBy .errorCallback = s.ledger.leftBy .errorCallback ++ out.errors := by
  cases c with
  | enqueue entry =>
    obtain ⟨-, hentry, -, hledger⟩ := perform_enqueue hp
    have haccept : ∀ k, (if out.flag then
        s.ledger.accept (entry.setExpireTime s.now s.queue.queueTimeout) else s.ledger).leftBy k =
          s.ledger.leftBy k := by
      intro k
      split_ifs <;> rfl
    refine ⟨h.enqueue hp, ?_, ?_⟩
    · rw [hledger, Ledger.leftBy_leave, haccept, hentry]
      simp
    · rw [hledger, Ledger.leftBy_leave, haccept, if_pos rfl]
  | dequeue dst =>
    cases hp
    refine ⟨h.dequeue dst, ?_, ?_⟩ <;> simp [Ledger.leftBy_leave]
  | dropPacketWithDst dst =>
    cases hp
    refine ⟨h.dropPacketWithDst dst, ?_, ?_⟩ <;> simp [Ledger.leftBy_leave]
  | find dst =>
    cases hp
    exact ⟨h, (List.append_nil _).symm, (List.append_nil _).symm⟩
  | getSize =>
    cases hp
    refine ⟨⟨h.unique_live, h.books_live, h.maxLen⟩, ?_, ?_⟩ <;>
      simp [Ledger.leftBy_leave]

theorem Consistent.exists_perform (h : s.Consistent) (c : Call) : ∃ r, s.perform c = .ok r := by
  cases c with
  | enqueue entry =>
    obtain ⟨⟨flag, queue, errors⟩, hr⟩ := exists_enqueue h.maxLen s.now entry
    exact ⟨_, by rw [History.perform, hr]; rfl⟩
  | dequeue => exact ⟨_, rfl⟩
  | dropPacketWithDst => exact ⟨_, rfl⟩
  | find => exact ⟨_, rfl⟩
  | getSize => exact ⟨_, rfl⟩

end

/-! ### Runs -/

theorem Consistent.at {s : History} (h : s.Consistent) (now : Time) :
    ({ s with now } : History).Consistent := ⟨h.unique, h.books, h.maxLen⟩

theorem step_consistent {x : Transition History Event Answer} (hx : Step x)
    (h : x.pre.Consistent) : x.post.Consistent := ((h.at x.event.time).perform hx.2).1

theorem step_lawful {x : Transition History Event Answer} (hx : Step x)
    (h : x.pre.Consistent) : Lawful x := by
  obtain ⟨hpost, hreturned, hcallbacks⟩ := (h.at x.event.time).perform hx.2
  refine ⟨hpost.unique, hpost.books, hreturned, hcallbacks, fun entry hc => ?_, fun dst hc => ?_⟩
  · have hp := hx.2
    rw [hc] at hp
    obtain ⟨henqueue, -, -, hledger⟩ := perform_enqueue hp
    refine ⟨enqueues_enqueue henqueue, ?_⟩
    rw [hledger]
    split_ifs
    · rfl
    · exact (List.append_nil _).symm
  · have hp := hx.2
    rw [hc] at hp
    rw [perform_dequeue hp]
    exact dequeues_dequeue x.event.time dst x.pre.queue

/-- In every run from the empty queue every call does right, and no call fails. -/
theorem queue_lawful {s u : History} {tr : List (Transition History Event Answer)}
    (hrun : Run Step s tr u) (hs : s.Initial) :
    (∀ x ∈ tr, Lawful x) ∧ ∀ (now : Time) (c : Call), ∃ r, { u with now }.perform c = .ok r := by
  have hinv := hrun.invariant (I := Consistent) (fun x hx h => step_consistent hx h) hs.consistent
  exact ⟨fun x hx => step_lawful (hrun.step_of_mem x hx) (hinv.2 x hx),
    fun now c => (hinv.1.at now).exists_perform c⟩

/-- An entry comes in and is asked for after its time. -/
theorem queue_lawful_expired :
    let entry : QueueEntry := ⟨⟨[], 1, false⟩, ⟨1, 2⟩, 0, 0, 0⟩
    let queue : RequestQueue := ⟨[], 1, Time.seconds 1⟩
    let waiting : QueueEntry := ⟨⟨[], 1, false⟩, ⟨1, 2⟩, 0, 0, Time.seconds 1⟩
    let first : Transition History Event Answer :=
      ⟨⟨0, queue, {}⟩, ⟨0, .enqueue entry⟩, {},
        ⟨0, { queue with entries := [waiting] }, { accepted := [waiting] }⟩⟩
    let second : Transition History Event Answer :=
      ⟨⟨0, { queue with entries := [waiting] }, { accepted := [waiting] }⟩,
        ⟨Time.seconds 2, .dequeue 2⟩, { flag := false, errors := [waiting] },
        ⟨Time.seconds 2, queue,
          { accepted := [waiting], left := [(.errorCallback, waiting)] }⟩⟩
    Lawful first ∧ Lawful second := by
  intro entry queue waiting first second
  have hrun : Run Step first.pre [first, second] second.post :=
    .cons rfl ⟨le_rfl, rfl⟩ (.cons rfl ⟨by decide, rfl⟩ (.nil _))
  have hlawful := (queue_lawful hrun ⟨rfl, le_rfl, rfl⟩).1
  exact ⟨hlawful first (by simp), hlawful second (by simp)⟩

end History

end RequestQueue

end SAeroRP
