import SAeroRP.Library.Scan
import SAeroRP.Tables.EntryTable

/-! The neighbour table and the choice of the best neighbour. A neighbour is
better than another when its time to intercept the destination is smaller; the
value 0 stands for never and is worse than every other. The times are taken from
any valuation `tti` in a type with a strict order. Where all times compare, the
choice is the best neighbour, and the one with the least address if several are. -/

namespace SAeroRP

open Library

structure NeighborTableEntry where
  position : Vector3D
  velocity : Vector3D
  deriving DecidableEq

structure NeighborTable where
  table : EntryTable NeighborTableEntry := ∅
  range : ℚ := 27800

/-- The time to intercept from the destination's position, a node's position and
velocity and the radio range. -/
abbrev TimeToIntercept (β : Type) := Vector3D → Vector3D → Vector3D → ℚ → β

namespace NeighborTable

def entryLifeTime : Time := Time.seconds 4

def addEntry (now : Time) (id : Ipv4Address) (position velocity : Vector3D) (t : NeighborTable) :
    NeighborTable := { t with table := t.table.addEntry now id ⟨position, velocity⟩ }

/-- An entry that is there gets the new values and keeps its time. -/
def updateEntry (now : Time) (id : Ipv4Address) (position velocity : Vector3D)
    (t : NeighborTable) : NeighborTable :=
  match t.table[id]? with
  | some e => { t with table := t.table.insert id (⟨position, velocity⟩, e.2) }
  | none => t.addEntry now id position velocity

def deleteEntry (id : Ipv4Address) (t : NeighborTable) : NeighborTable :=
  { t with table := t.table.deleteEntry id }

def purge (now : Time) (t : NeighborTable) : NeighborTable :=
  { t with table := t.table.purge entryLifeTime now }

def clear (t : NeighborTable) : NeighborTable := { t with table := ∅ }

-- a miss is taken as a miss: what the source compares next is no entry's key
def isNeighbour (t : NeighborTable) (id : Ipv4Address) : Bool := t.table[id]?.isSome

/-- The address is a neighbour whose last advertisement is less than a life time
old. -/
def Live (now : Time) (t : NeighborTable) (a : Ipv4Address) : Prop :=
  EntryTable.Live entryLifeTime now t.table a

instance (now : Time) (t : NeighborTable) (a : Ipv4Address) : Decidable (t.Live now a) :=
  inferInstanceAs (Decidable (EntryTable.Live ..))

section Candidates
variable {β : Type}

/-- The time to intercept of every entry, in the order of the addresses. -/
def candidates (tti : TimeToIntercept β) (t : NeighborTable) (dstPosition : Vector3D) :
    List (Ipv4Address × β) :=
  t.table.toList.map fun e => (e.1, tti dstPosition e.2.1.position e.2.1.velocity t.range)

theorem mem_candidates {tti : TimeToIntercept β} {t : NeighborTable} {dstPosition : Vector3D}
    {c : Ipv4Address × β} :
    c ∈ t.candidates tti dstPosition ↔ ∃ e, t.table[c.1]? = some e ∧
      tti dstPosition e.1.position e.1.velocity t.range = c.2 := by
  obtain ⟨id, v⟩ := c
  simp only [candidates, List.mem_map, Prod.exists, Prod.mk.injEq,
    Std.ExtTreeMap.mem_toList_iff_getElem?_eq_some]
  constructor
  · rintro ⟨id', e, u, he, rfl, rfl⟩
    exact ⟨e, u, he, rfl⟩
  · rintro ⟨e, u, he, rfl⟩
    exact ⟨id, e, u, he, rfl, rfl⟩

theorem isNeighbour_of_candidate {tti : TimeToIntercept β} {t : NeighborTable}
    {dstPosition : Vector3D} {c : Ipv4Address × β} (h : c ∈ t.candidates tti dstPosition) :
    t.isNeighbour c.1 = true := by
  obtain ⟨e, he, -⟩ := mem_candidates.mp h
  exact Option.isSome_iff_exists.mpr ⟨e, he⟩

theorem candidates_pairwise (tti : TimeToIntercept β) (t : NeighborTable) (dstPosition : Vector3D) :
    (t.candidates tti dstPosition).Pairwise fun a b => a.1 < b.1 := by
  rw [candidates, List.pairwise_map]
  exact (Std.ExtTreeMap.ordered_keys_toList (t := t.table)).imp fun h => Std.compare_eq_lt.mp h

end Candidates

section BestNeighbor
variable {β : Type} [Preorder β] [DecidableLT β] [DecidableEq β] [Zero β]

/-- The test inside the scan: the current time replaces the best one. -/
def Beats (current best : β) : Prop :=
  (current < best ∧ current ≠ 0) ∨ (best = 0 ∧ current ≠ 0)

instance : DecidableRel (Beats (β := β)) := fun _ _ => inferInstanceAs (Decidable (_ ∨ _))

def bestNeighbor (tti : TimeToIntercept β) (now : Time) (t : NeighborTable)
    (dstPosition nodePosition nodeVelocity : Vector3D) : Ipv4Address × NeighborTable :=
  let t := t.purge now
  let initialTTI := tti dstPosition nodePosition nodeVelocity t.range
  match t.candidates tti dstPosition with
  | [] => (Ipv4Address.getZero, t)
  | first :: rest =>
    let best := scan Beats (first.1, initialTTI) (first :: rest)
    if best.2 < initialTTI ∨ (initialTTI = 0 ∧ best.2 ≠ 0) then (best.1, t)
    else (Ipv4Address.getZero, t)

variable (tti : TimeToIntercept β) (now : Time) (t : NeighborTable) (dstPosition : Vector3D)
  (nodePosition nodeVelocity : Vector3D)

theorem bestNeighbor_snd :
    (t.bestNeighbor tti now dstPosition nodePosition nodeVelocity).2 = t.purge now := by
  unfold bestNeighbor
  dsimp only
  split
  · rfl
  · split_ifs <;> rfl

@[simp] theorem purge_purge : (t.purge now).purge now = t.purge now := by
  simp [purge]

/-- A table that was purged already gives the same answer. -/
theorem bestNeighbor_purge :
    (t.purge now).bestNeighbor tti now dstPosition nodePosition nodeVelocity =
      t.bestNeighbor tti now dstPosition nodePosition nodeVelocity := by
  simp only [bestNeighbor, purge_purge]

/-- Without a neighbour that beats the node itself no neighbour is chosen. -/
theorem bestNeighbor_eq_zero
    (h : ∀ c ∈ (t.purge now).candidates tti dstPosition,
      ¬ Beats c.2 (tti dstPosition nodePosition nodeVelocity t.range)) :
    (t.bestNeighbor tti now dstPosition nodePosition nodeVelocity).1 = Ipv4Address.getZero := by
  unfold bestNeighbor
  dsimp only
  split
  · rfl
  · rename_i first rest hc
    rw [hc] at h
    rw [scan_of_not_beats Beats h, if_neg]
    rintro (hlt | ⟨h0, hne⟩)
    · exact lt_irrefl _ hlt
    · exact hne h0

omit [Zero β] [DecidableLT β] [DecidableEq β] in
theorem beats_trans [Zero β] (a b c : β) (hab : Beats a b) (hbc : Beats b c) : Beats a c := by
  have hb : b ≠ 0 := hbc.elim And.right And.right
  obtain ⟨hlt, ha⟩ : a < b ∧ a ≠ 0 := hab.resolve_right fun h => hb h.1
  rcases hbc with ⟨hlt', -⟩ | ⟨hc, -⟩
  · exact .inl ⟨hlt.trans hlt', ha⟩
  · exact .inr ⟨hc, ha⟩

/-- With a neighbour that beats the node itself the one the scan ends with is chosen. -/
theorem bestNeighbor_eq_scan (h : ∃ c ∈ (t.purge now).candidates tti dstPosition,
    Beats c.2 (tti dstPosition nodePosition nodeVelocity t.range)) :
    ∃ start : Ipv4Address × β, start.2 = tti dstPosition nodePosition nodeVelocity t.range ∧
      (t.bestNeighbor tti now dstPosition nodePosition nodeVelocity).1 =
        (scan Beats start ((t.purge now).candidates tti dstPosition)).1 := by
  have hrange : (t.purge now).range = t.range := rfl
  unfold bestNeighbor
  dsimp only
  rw [hrange]
  generalize tti dstPosition nodePosition nodeVelocity t.range = own at h
  cases hl : (t.purge now).candidates tti dstPosition with
  | nil =>
    obtain ⟨c, hc, -⟩ := h
    rw [hl] at hc
    cases hc
  | cons first rest =>
    have hstart : ∃ c ∈ first :: rest, Beats c.2 (first.1, own).2 := hl ▸ h
    obtain ⟨-, hbeat⟩ := scan_of_beats Beats beats_trans hstart
    refine ⟨(first.1, own), rfl, ?_⟩
    dsimp only
    rw [if_pos (hbeat.imp And.left id)]

/-- With a neighbour that beats the node itself one is chosen that does. -/
theorem bestNeighbor_of_beats (h : ∃ c ∈ (t.purge now).candidates tti dstPosition,
    Beats c.2 (tti dstPosition nodePosition nodeVelocity t.range)) :
    ∃ v, ((t.bestNeighbor tti now dstPosition nodePosition nodeVelocity).1, v) ∈
        (t.purge now).candidates tti dstPosition ∧
      Beats v (tti dstPosition nodePosition nodeVelocity t.range) := by
  obtain ⟨start, hown, hscan⟩ :=
    bestNeighbor_eq_scan tti now t dstPosition nodePosition nodeVelocity h
  rw [← hown] at h
  obtain ⟨hin, hbeat⟩ := scan_of_beats Beats beats_trans h
  rw [hscan, ← hown]
  exact ⟨_, hin, hbeat⟩

theorem bestNeighbor_beats :
    (t.bestNeighbor tti now dstPosition nodePosition nodeVelocity).1 = Ipv4Address.getZero ∨
      ∃ v, ((t.bestNeighbor tti now dstPosition nodePosition nodeVelocity).1, v) ∈
          (t.purge now).candidates tti dstPosition ∧
        Beats v (tti dstPosition nodePosition nodeVelocity t.range) := by
  by_cases h : ∃ c ∈ (t.purge now).candidates tti dstPosition,
      Beats c.2 (tti dstPosition nodePosition nodeVelocity t.range)
  · exact .inr (bestNeighbor_of_beats tti now t dstPosition nodePosition nodeVelocity h)
  · push Not at h
    exact .inl (bestNeighbor_eq_zero tti now t dstPosition nodePosition nodeVelocity h)

end BestNeighbor

/-! ### The best neighbour -/

section Best
variable {β : Type} [Preorder β] [Zero β]

/-- Any two times compare. -/
def Exact (β : Type) [Preorder β] : Prop := ∀ a b : β, a < b ∨ a = b ∨ b < a

theorem not_beats_self (a : β) : ¬ Beats a a := by
  rintro (⟨h, -⟩ | ⟨h, hne⟩)
  · exact lt_irrefl _ h
  · exact hne h

theorem beats_cotrans (hexact : Exact β) (a b c : β) (h : Beats a c) : Beats a b ∨ Beats b c := by
  have ha : a ≠ 0 := h.elim And.right And.right
  by_cases hb : b = 0
  · exact .inl (.inr ⟨hb, ha⟩)
  rcases hexact a b with hab | rfl | hba
  · exact .inl (.inl ⟨hab, ha⟩)
  · exact .inr h
  · exact .inr (h.imp (fun hlt => ⟨hba.trans hlt.1, hb⟩) fun h0 => ⟨h0.1, hb⟩)

variable (tti : TimeToIntercept β) (now : Time) (t : NeighborTable) (dstPosition : Vector3D)
  (nodePosition nodeVelocity : Vector3D)

/-- The address is a neighbour that beats the node itself, no neighbour beats it,
and it is the least address of those that tie with it. -/
def IsBest (own : β) (a : Ipv4Address) : Prop :=
  ∃ v, (a, v) ∈ t.candidates tti dstPosition ∧ Beats v own ∧
    ∀ c ∈ t.candidates tti dstPosition, ¬ Beats c.2 v ∧ (¬ Beats v c.2 → a = c.1 ∨ a < c.1)

variable {tti} {t} {dstPosition} in
theorem IsBest.unique {own : β} {a b : Ipv4Address} (ha : IsBest tti t dstPosition own a)
    (hb : IsBest tti t dstPosition own b) : a = b := by
  obtain ⟨v, hav, -, hv⟩ := ha
  obtain ⟨w, hbw, -, hw⟩ := hb
  rcases (hv _ hbw).2 (hw _ hav).1 with h | hab
  · exact h
  · rcases (hw _ hav).2 (hv _ hbw).1 with h | hba
    · exact h.symm
    · exact absurd (UInt32.lt_trans hab hba) (UInt32.lt_irrefl _)

variable [DecidableLT β] [DecidableEq β]

/-- The best entry is chosen, and 0.0.0.0 when no entry beats the node itself. -/
theorem bestNeighbor_spec (hexact : Exact β) :
    IsBest tti (t.purge now) dstPosition (tti dstPosition nodePosition nodeVelocity t.range)
        (t.bestNeighbor tti now dstPosition nodePosition nodeVelocity).1 ∨
      (∀ c ∈ (t.purge now).candidates tti dstPosition,
        ¬ Beats c.2 (tti dstPosition nodePosition nodeVelocity t.range)) ∧
      (t.bestNeighbor tti now dstPosition nodePosition nodeVelocity).1 = Ipv4Address.getZero := by
  by_cases h : ∃ c ∈ (t.purge now).candidates tti dstPosition,
      Beats c.2 (tti dstPosition nodePosition nodeVelocity t.range)
  · left
    have hpair := (t.purge now).candidates_pairwise tti dstPosition
    obtain ⟨start, hown, hscan⟩ :=
      bestNeighbor_eq_scan tti now t dstPosition nodePosition nodeVelocity h
    rw [← hown] at h
    obtain ⟨hin, hbeat⟩ := scan_of_beats Beats beats_trans h
    have hleast := (not_beats_scan Beats beats_trans not_beats_self (beats_cotrans hexact) start
      ((t.purge now).candidates tti dstPosition)).2
    rw [hscan, ← hown]
    refine ⟨_, hin, hbeat, fun c hc => ⟨hleast c hc, fun htie => ?_⟩⟩
    exact scan_key_le Beats beats_trans (beats_cotrans hexact) _ hpair c hc htie hbeat
  · push Not at h
    exact .inr ⟨h, bestNeighbor_eq_zero tti now t dstPosition nodePosition nodeVelocity h⟩

variable {tti} {now} {t} {dstPosition} {nodePosition} {nodeVelocity} in
theorem bestNeighbor_eq_of_isBest (hexact : Exact β) {a : Ipv4Address}
    (h : IsBest tti (t.purge now) dstPosition
      (tti dstPosition nodePosition nodeVelocity t.range) a) :
    (t.bestNeighbor tti now dstPosition nodePosition nodeVelocity).1 = a := by
  rcases bestNeighbor_spec tti now t dstPosition nodePosition nodeVelocity hexact with
    hbest | ⟨hnone, -⟩
  · exact hbest.unique h
  · obtain ⟨v, hv, hbeats, -⟩ := h
    exact absurd hbeats (hnone _ hv)

end Best

end NeighborTable

end SAeroRP
