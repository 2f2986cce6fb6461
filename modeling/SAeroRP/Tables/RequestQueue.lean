import Mathlib.Data.List.Basic
import Mathlib.Tactic.SplitIfs
import SAeroRP.Ns3.Basic

/-! The queue of packets that wait for a next hop. Expired entries are dropped
lazily, by the next operation; an operation returns the entries it dropped, whose
error callbacks the caller runs. -/

namespace SAeroRP

/-- A search and the removal of what it finds split a list. -/
theorem perm_find?_eraseP {α : Type} (p : α → Bool) (l : List α) :
    ((l.find? p).toList ++ l.eraseP p).Perm l := by
  induction l with
  | nil => exact .nil
  | cons a l ih =>
    by_cases ha : p a = true
    · rw [List.find?_cons_of_pos ha, List.eraseP_cons_of_pos ha]
      exact .refl _
    · rw [List.find?_cons_of_neg ha, List.eraseP_cons_of_neg ha]
      exact List.perm_middle.trans (ih.cons a)

structure QueueEntry where
  packet : Packet
  header : Ipv4Header
  ucb : Callback
  ecb : Callback
  expire : Time
  deriving DecidableEq

namespace QueueEntry

def setExpireTime (now exp : Time) (e : QueueEntry) : QueueEntry := { e with expire := exp + now }
def getExpireTime (now : Time) (e : QueueEntry) : Time := e.expire - now

/-- The constructor's default expiry time is the present time. -/
def make (now : Time) (packet : Packet) (header : Ipv4Header) (ucb ecb : Callback) : QueueEntry :=
  ⟨packet, header, ucb, ecb, now + now⟩

end QueueEntry

structure RequestQueue where
  entries : List QueueEntry := []
  maxLen : ℕ := 28160000
  queueTimeout : Time := Time.seconds 10000
  deriving DecidableEq

namespace RequestQueue

def setMaxQueueLen (len : UInt32) (q : RequestQueue) : RequestQueue := { q with maxLen := len.toNat }
def setQueueTimeout (t : Time) (q : RequestQueue) : RequestQueue := { q with queueTimeout := t }

def isExpired (now : Time) (e : QueueEntry) : Bool := decide (e.getExpireTime now < Time.seconds 0)

/-- The queue without its expired entries, and those entries. -/
def purge (now : Time) (q : RequestQueue) : RequestQueue × List QueueEntry :=
  ({ q with entries := q.entries.filter fun e => !isExpired now e },
    q.entries.filter (isExpired now))

def getSize (now : Time) (q : RequestQueue) : ℕ × RequestQueue × List QueueEntry :=
  let (q, dropped) := q.purge now
  (q.entries.length, q, dropped)

/-- Refuses a packet that is queued already; a full queue loses its oldest entry. -/
def enqueue (now : Time) (entry : QueueEntry) (q : RequestQueue) :
    Except Fault (Bool × RequestQueue × List QueueEntry) :=
  let (q, dropped) := q.purge now
  if q.entries.any fun i => i.packet.uid = entry.packet.uid ∧
      i.header.destination = entry.header.destination then
    .ok (false, q, dropped)
  else
    let entry := entry.setExpireTime now q.queueTimeout
    if q.entries.length = q.maxLen then
      match q.entries with
      | [] => .error .emptyFront
      | front :: rest => .ok (true, { q with entries := rest ++ [entry] }, dropped ++ [front])
    else .ok (true, { q with entries := q.entries ++ [entry] }, dropped)

/-- The earliest entry for the destination. -/
def dequeue (now : Time) (dst : Ipv4Address) (q : RequestQueue) :
    Option QueueEntry × RequestQueue × List QueueEntry :=
  let (q, dropped) := q.purge now
  let forDst := fun e : QueueEntry => decide (e.header.destination = dst)
  (q.entries.find? forDst, { q with entries := q.entries.eraseP forDst }, dropped)

/-- The entries that are dropped: those that have expired, then those for the
destination. -/
def dropPacketWithDst (now : Time) (dst : Ipv4Address) (q : RequestQueue) :
    RequestQueue × List QueueEntry :=
  let (q, dropped) := q.purge now
  let forDst := fun e : QueueEntry => decide (e.header.destination = dst)
  ({ q with entries := q.entries.filter fun e => !forDst e },
    dropped ++ q.entries.filter forDst)

/-- Expired entries are found too: nothing is purged. -/
def find (dst : Ipv4Address) (q : RequestQueue) : Bool :=
  q.entries.any fun e => e.header.destination = dst

/-- An entry for the destination is queued and has not expired. -/
def Holds (now : Time) (q : RequestQueue) (dst : Ipv4Address) : Prop :=
  ∃ e ∈ q.entries, isExpired now e = false ∧ e.header.destination = dst

instance (now : Time) (q : RequestQueue) (dst : Ipv4Address) : Decidable (q.Holds now dst) :=
  inferInstanceAs (Decidable (∃ e ∈ q.entries, _ ∧ _))

/-- The packet with this uid is queued for the destination and has not expired. -/
def Queued (now : Time) (q : RequestQueue) (uid : UInt64) (dst : Ipv4Address) : Prop :=
  ∃ e ∈ q.entries, isExpired now e = false ∧ e.packet.uid = uid ∧ e.header.destination = dst

instance (now : Time) (q : RequestQueue) (uid : UInt64) (dst : Ipv4Address) :
    Decidable (q.Queued now uid dst) :=
  inferInstanceAs (Decidable (∃ e ∈ q.entries, _ ∧ _))

variable {now : Time} {q : RequestQueue} {dst : Ipv4Address} {e : QueueEntry}

theorem dequeue_eq_none : (q.dequeue now dst).1 = none ↔ ¬ q.Holds now dst := by
  simp only [dequeue, purge, List.find?_eq_none, List.mem_filter, Holds]
  constructor
  · rintro h ⟨e, he, hlive, rfl⟩
    exact h e ⟨he, by simp [hlive]⟩ (by simp)
  · rintro h e ⟨he, hlive⟩ hdst
    exact h ⟨e, he, by simpa using hlive, by simpa using hdst⟩

theorem destination_of_dequeue (h : (q.dequeue now dst).1 = some e) :
    e.header.destination = dst := by
  have := List.find?_some h
  simpa using this

/-! ### What leaves the queue -/

/-- A purge splits the queue into the entries it drops and the entries it keeps. -/
theorem perm_purge (now : Time) (q : RequestQueue) :
    ((q.purge now).2 ++ (q.purge now).1.entries).Perm q.entries :=
  List.filter_append_perm (isExpired now) q.entries

@[simp] theorem queueTimeout_purge (now : Time) (q : RequestQueue) :
    (q.purge now).1.queueTimeout = q.queueTimeout := rfl

theorem mem_purge : e ∈ (q.purge now).1.entries ↔ e ∈ q.entries ∧ isExpired now e = false := by
  simp [purge]

theorem queued_purge {uid : UInt64} : (q.purge now).1.Queued now uid dst ↔ q.Queued now uid dst := by
  constructor
  · rintro ⟨e, he, h⟩
    exact ⟨e, (mem_purge.mp he).1, h⟩
  · rintro ⟨e, he, hlive, h⟩
    exact ⟨e, mem_purge.mpr ⟨he, hlive⟩, hlive, h⟩

variable (now dst q) in
/-- An entry that is in the queue is dropped as expired, handed out or kept. -/
theorem perm_dequeue :
    ((q.dequeue now dst).2.2 ++ ((q.dequeue now dst).1.toList ++
      (q.dequeue now dst).2.1.entries)).Perm q.entries := by
  have hfound := perm_find?_eraseP (fun e : QueueEntry => decide (e.header.destination = dst))
    (q.purge now).1.entries
  exact (hfound.append_left _).trans (perm_purge now q)

variable (now dst q) in
theorem subset_dequeue : (q.dequeue now dst).2.1.entries ⊆ q.entries := by
  intro e he
  refine (perm_dequeue now q dst).subset ?_
  simp [he]

/-- Where nothing is found the queue is purged and otherwise left alone. -/
theorem entries_dequeue_of_none (h : (q.dequeue now dst).1 = none) :
    (q.dequeue now dst).2.1.entries = (q.purge now).1.entries :=
  List.eraseP_of_forall_not (List.find?_eq_none.mp h)

/-- Enqueue refuses a packet that is queued, or takes it in. -/
theorem enqueue_ok {q' : RequestQueue} {added : Bool} {dropped : List QueueEntry}
    (h : q.enqueue now e = .ok (added, q', dropped)) :
    (q.Queued now e.packet.uid e.header.destination ∧ (dropped ++ q'.entries).Perm q.entries) ∨
      ¬ q.Queued now e.packet.uid e.header.destination ∧
        (dropped ++ q'.entries).Perm (q.entries ++ [e.setExpireTime now q.queueTimeout]) := by
  have hpurge := perm_purge now q
  have hany : (((q.purge now).1.entries.any fun i =>
      decide (i.packet.uid = e.packet.uid ∧ i.header.destination = e.header.destination)) = true) ↔
      q.Queued now e.packet.uid e.header.destination := by
    simp [Queued, mem_purge, and_assoc]
  unfold enqueue at h
  dsimp only at h
  split_ifs at h with hqueued hfull
  · cases h
    exact .inl ⟨hany.mp hqueued, hpurge⟩
  · refine .inr ⟨fun hq => hqueued (hany.mpr hq), ?_⟩
    split at h
    · cases h
    · rename_i front rest hentries
      cases h
      rw [hentries] at hpurge
      simpa using hpurge.append_right [e.setExpireTime now q.queueTimeout]
  · refine .inr ⟨fun hq => hqueued (hany.mpr hq), ?_⟩
    cases h
    simpa using hpurge.append_right [e.setExpireTime now q.queueTimeout]

theorem length_of_dequeue (h : (q.dequeue now dst).1 = some e) :
    (q.dequeue now dst).2.1.entries.length < q.entries.length := by
  have hlen : ((q.purge now).1.entries).length ≤ q.entries.length := List.length_filter_le _ _
  have hin : e ∈ (q.purge now).1.entries := List.mem_of_find?_eq_some h
  have hpos : 0 < ((q.purge now).1.entries).length := List.length_pos_of_mem hin
  have herase := List.length_eraseP_of_mem hin (p := fun e => decide (e.header.destination = dst))
    (by simpa using destination_of_dequeue h)
  simp only [dequeue]
  omega

end RequestQueue

end SAeroRP
