import SAeroRP.Tables.NeighborTable

/-! What BestNeighbor answers, in terms of the table as it is before the call: the
neighbour with the least time to intercept among the entries that have not expired,
where 0 is no time at all, if the node itself has none or a larger one. -/

namespace SAeroRP

open Library

namespace NeighborTable

section
variable {β : Type}

/-- The address has an entry that has not expired, with this time to intercept, and
the time is not 0. -/
structure Intercepts [Zero β] (tti : TimeToIntercept β) (now : Time) (t : NeighborTable)
    (dstPosition : Vector3D) (n : Ipv4Address) (v : β) : Prop where
  entry : ∃ e, t.table[n]? = some e ∧ now < e.2 + entryLifeTime ∧
    tti dstPosition e.1.position e.1.velocity t.range = v
  ne_zero : v ≠ 0

/-- The best eligible neighbour of a node whose own time is `own`: no entry has a
smaller time, no smaller address has the same, and the node itself does worse. -/
def IsBestEligible [LinearOrder β] [Zero β] (tti : TimeToIntercept β) (now : Time)
    (t : NeighborTable) (dstPosition : Vector3D) (own : β) (n : Ipv4Address) : Prop :=
  ∃ v, Intercepts tti now t dstPosition n v ∧
    (∀ m w, Intercepts tti now t dstPosition m w → v ≤ w ∧ (w = v → n ≤ m)) ∧
    (own = 0 ∨ v < own)

/-- Without an entry for 0.0.0.0, a purge keeps exactly the entries that have not
expired. -/
theorem mem_candidates_purge {tti : TimeToIntercept β} {now : Time} {t : NeighborTable}
    {dstPosition : Vector3D} (h0 : t.table[Ipv4Address.getZero]? = none) {n : Ipv4Address} {v : β} :
    (n, v) ∈ (t.purge now).candidates tti dstPosition ↔
      ∃ e, t.table[n]? = some e ∧ now < e.2 + entryLifeTime ∧
        tti dstPosition e.1.position e.1.velocity t.range = v := by
  have hne : ∀ e, t.table[n]? = some e → EntryTable.updateTime n e = e.2 := by
    intro e he
    refine if_neg ?_
    rintro rfl
    rw [h0] at he
    cases he
  rw [mem_candidates]
  constructor
  · rintro ⟨e, he, hv⟩
    obtain ⟨ht, hlive⟩ := EntryTable.getElem?_purge_eq_some.mp he
    rw [hne e ht, add_comm] at hlive
    exact ⟨e, ht, hlive, hv⟩
  · rintro ⟨e, ht, hlive, hv⟩
    refine ⟨e, EntryTable.getElem?_purge_eq_some.mpr ⟨ht, ?_⟩, hv⟩
    rw [hne e ht, add_comm]
    exact hlive

end

section
variable {β : Type} [LinearOrder β] [Zero β]

omit [Zero β] in
theorem exact_of_linearOrder : Exact β := lt_trichotomy

/-- A time beats another when it is not 0 and the other is 0 or larger. -/
theorem beats_iff {v w : β} : Beats v w ↔ v ≠ 0 ∧ (w = 0 ∨ v < w) := by
  unfold Beats
  tauto

/-- The choice of the scan is the best eligible neighbour. -/
theorem isBest_purge_iff {tti : TimeToIntercept β} {now : Time} {t : NeighborTable}
    {dstPosition : Vector3D} (h0 : t.table[Ipv4Address.getZero]? = none) {own : β}
    {n : Ipv4Address} :
    IsBest tti (t.purge now) dstPosition own n ↔ IsBestEligible tti now t dstPosition own n := by
  have hmem : ∀ m w, (m, w) ∈ (t.purge now).candidates tti dstPosition ↔
      ∃ e, t.table[m]? = some e ∧ now < e.2 + entryLifeTime ∧
        tti dstPosition e.1.position e.1.velocity t.range = w := fun _ _ => mem_candidates_purge h0
  constructor
  · rintro ⟨v, hv, hbeats, hbest⟩
    obtain ⟨hv0, hown⟩ := beats_iff.mp hbeats
    refine ⟨v, ⟨(hmem n v).mp hv, hv0⟩, fun m w hw => ?_, hown⟩
    obtain ⟨hnot, htie⟩ := hbest (m, w) ((hmem m w).mpr hw.entry)
    simp only [beats_iff] at hnot htie
    constructor
    · by_contra hlt
      exact hnot ⟨hw.ne_zero, .inr (not_le.mp hlt)⟩
    · rintro rfl
      rcases htie fun h => h.2.elim hv0 (lt_irrefl w) with rfl | hlt
      · exact UInt32.le_refl n
      · exact UInt32.le_of_lt hlt
  · rintro ⟨v, hv, hbest, hown⟩
    refine ⟨v, (hmem n v).mpr hv.entry, beats_iff.mpr ⟨hv.ne_zero, hown⟩, ?_⟩
    rintro ⟨m, w⟩ hw
    have hw := (hmem m w).mp hw
    simp only [beats_iff]
    constructor
    · rintro ⟨hw0, hv0 | hlt⟩
      · exact hv.ne_zero hv0
      · exact absurd (hbest m w ⟨hw, hw0⟩).1 (not_le.mpr hlt)
    · intro hnot
      -- a time that does not lose is not 0 and not larger, so it ties
      have hw0 : w ≠ 0 := fun h => hnot ⟨hv.ne_zero, .inl h⟩
      obtain ⟨hle, htie⟩ := hbest m w ⟨hw, hw0⟩
      have heq : w = v := (hle.eq_of_not_lt fun hlt => hnot ⟨hv.ne_zero, .inr hlt⟩).symm
      exact (UInt32.lt_or_eq_of_le (htie heq)).symm

/-- BestNeighbor answers with an address exactly if it is the best eligible neighbour,
and with 0.0.0.0 exactly if there is none. -/
theorem bestNeighbor_selects_best (tti : TimeToIntercept β) (now : Time) (t : NeighborTable)
    (dstPosition nodePosition nodeVelocity : Vector3D)
    (h0 : t.table[Ipv4Address.getZero]? = none) :
    (∀ n, n ≠ Ipv4Address.getZero →
      ((t.bestNeighbor tti now dstPosition nodePosition nodeVelocity).1 = n ↔
        IsBestEligible tti now t dstPosition
          (tti dstPosition nodePosition nodeVelocity t.range) n)) ∧
    ((t.bestNeighbor tti now dstPosition nodePosition nodeVelocity).1 = Ipv4Address.getZero ↔
      ¬ ∃ n, IsBestEligible tti now t dstPosition
        (tti dstPosition nodePosition nodeVelocity t.range) n) := by
  have hspec := bestNeighbor_spec tti now t dstPosition nodePosition nodeVelocity
    exact_of_linearOrder
  have hchosen : ∀ n, IsBestEligible tti now t dstPosition
      (tti dstPosition nodePosition nodeVelocity t.range) n →
      (t.bestNeighbor tti now dstPosition nodePosition nodeVelocity).1 = n :=
    fun n h => bestNeighbor_eq_of_isBest exact_of_linearOrder ((isBest_purge_iff h0).mpr h)
  -- the address 0.0.0.0 has no entry, so it is not the best
  have hzero : ¬ IsBestEligible tti now t dstPosition
      (tti dstPosition nodePosition nodeVelocity t.range) Ipv4Address.getZero := by
    rintro ⟨v, ⟨⟨e, he, -⟩, -⟩, -⟩
    rw [h0] at he
    cases he
  constructor
  · intro n hn
    refine ⟨fun h => ?_, hchosen n⟩
    rcases hspec with hbest | ⟨-, hnone⟩
    · rw [h] at hbest
      exact (isBest_purge_iff h0).mp hbest
    · exact absurd (h.symm.trans hnone) hn
  · constructor
    · rintro h ⟨n, hn⟩
      have hn' := hchosen n hn
      rw [h] at hn'
      rw [← hn'] at hn
      exact hzero hn
    · intro h
      rcases hspec with hbest | ⟨-, hnone⟩
      · exact absurd ⟨_, (isBest_purge_iff h0).mp hbest⟩ h
      · exact hnone

/-- A table with an expired entry and two that tie, seen by a node that never arrives:
the smaller address of the two is chosen. -/
theorem bestNeighbor_selects_best_tied :
    let tti : TimeToIntercept ℚ := fun _ position _ _ => position.x
    let t : NeighborTable := (({} : NeighborTable).addEntry 0 5 ⟨1, 0, 0⟩ ⟨0, 0, 0⟩).addEntry
      (Time.seconds 3) 9 ⟨2, 0, 0⟩ ⟨0, 0, 0⟩ |>.addEntry (Time.seconds 3) 7 ⟨2, 0, 0⟩ ⟨0, 0, 0⟩
    IsBestEligible tti (Time.seconds 4) t ⟨0, 0, 0⟩ 0 7 :=
  (((bestNeighbor_selects_best _ _ _ ⟨0, 0, 0⟩ ⟨0, 0, 0⟩ ⟨0, 0, 0⟩ (by decide +kernel)).1 7
    (by decide)).mp (by decide +kernel))

end

end NeighborTable

end SAeroRP
