import SAeroRP.System.Sample

/-! Three copies of one decision. RouteOutput and SendPacketFromQueue look for the
best neighbour toward the position that is stored for the destination; Forwarding
drops what GetPosition returns and looks toward the origin. The three agree on
the gateway where the destination is a neighbour itself, or where the best
neighbour is the same in both directions. -/

namespace SAeroRP.NextHopPaths

open Library Node

variable {β : Type} [Preorder β] [DecidableLT β] [DecidableEq β] [Zero β]

/-! ### Decisions -/

/-- No entry of the table has expired, the table does not hold the node's own
address, and neither that address nor the destination is 0.0.0.0. -/
structure Settled (now : Time) (dst : Ipv4Address) (n : Node) : Prop where
  unexpired : ∀ (a : Ipv4Address) (e : NeighborTableEntry × Time), n.neighbors.table[a]? = some e →
    EntryTable.expired NeighborTable.entryLifeTime now a e = false
  notOwn : n.neighbors.isNeighbour n.myAddress = false
  ownSet : n.myAddress ≠ Ipv4Address.getZero
  dstSet : dst ≠ Ipv4Address.getZero

/-- BestNeighbor answers the same for the stored position of the destination and
for the origin. -/
def SameBest (E : Env β) (now : Time) (dst : Ipv4Address) (n : Node) : Prop :=
  n.bestToward E now (n.nodesPosition.getPosition dst) = n.bestToward E now ⟨0, 0, 0⟩

/-- The node's best neighbour toward a position is `a`. -/
def IsBestToward (E : Env β) (n : Node) (position : Vector3D) (a : Ipv4Address) : Prop :=
  NeighborTable.IsBest E.tti n.neighbors position
    (E.tti position n.position n.velocity n.neighbors.range) a

section
variable {E : Env β} {now : Time} {dst : Ipv4Address} {n : Node}

theorem Settled.purge (h : Settled now dst n) : n.neighbors.purge now = n.neighbors := by
  have htable : n.neighbors.table.purge NeighborTable.entryLifeTime now = n.neighbors.table := by
    apply EntryTable.purge_of_forall
    intro a e he
    have := h.unexpired a e he
    simpa [EntryTable.expired] using this
  rw [NeighborTable.purge, htable]

theorem outputNextHop_eq_queueNextHop (h : Settled now dst n) :
    (n.outputNextHop E now dst).1 = (n.queueNextHop E now dst).1 := by
  have hown : n.bestToward E now (n.nodesPosition.getPosition dst) ≠ n.myAddress := by
    intro hbest
    by_cases hzero : n.bestToward E now (n.nodesPosition.getPosition dst) = Ipv4Address.getZero
    · exact h.ownSet (hbest.symm.trans hzero)
    · have hin := isNeighbour_bestToward hzero
      rw [hbest, h.purge, h.notOwn] at hin
      cases hin
  rw [outputNextHop_eq, queueNextHop_eq, if_neg hown, if_pos h.dstSet, h.purge]

theorem forwardNextHop_eq_queueNextHop_iff (h : Settled now dst n) :
    (n.forwardNextHop E now dst).1 = (n.queueNextHop E now dst).1 ↔
      n.neighbors.isNeighbour dst = true ∨ SameBest E now dst n := by
  rw [forwardNextHop_eq, queueNextHop_eq, h.purge]
  by_cases hneighbour : n.neighbors.isNeighbour dst = true
  · simp [hneighbour]
  · rw [if_neg hneighbour, if_neg hneighbour, SameBest]
    constructor
    · intro heq
      right
      split_ifs at heq with horigin hstored hstored
      · exact (Option.some.inj heq).symm
      · rw [not_not.mp horigin, not_not.mp hstored]
    · rintro (hyes | hsame)
      · exact absurd hyes hneighbour
      · rw [hsame]

/-- In terms of the neighbours, where all times compare: the best one toward one
position is the best toward the other. -/
theorem sameBest_iff (h : Settled now dst n) (hexact : NeighborTable.Exact β) :
    SameBest E now dst n ↔ ∀ a ≠ Ipv4Address.getZero,
      (IsBestToward E n (n.nodesPosition.getPosition dst) a ↔ IsBestToward E n ⟨0, 0, 0⟩ a) := by
  have hbest : ∀ position, ∀ a ≠ Ipv4Address.getZero,
      (IsBestToward E n position a ↔ n.bestToward E now position = a) := by
    intro position a ha
    have hspec := NeighborTable.bestNeighbor_spec E.tti now n.neighbors position n.position
      n.velocity hexact
    unfold IsBestToward bestToward
    rw [h.purge] at hspec
    constructor
    · intro hisBest
      exact NeighborTable.bestNeighbor_eq_of_isBest hexact (h.purge.symm ▸ hisBest)
    · rintro rfl
      exact hspec.resolve_right fun hnone => ha hnone.2
  constructor
  · intro hsame a ha
    rw [hbest _ a ha, hbest _ a ha, hsame]
  · intro hiff
    by_cases hstored : n.bestToward E now (n.nodesPosition.getPosition dst) = Ipv4Address.getZero
    · by_contra hne
      have horigin : n.bestToward E now ⟨0, 0, 0⟩ ≠ Ipv4Address.getZero :=
        fun h0 => hne (hstored.trans h0.symm)
      have htoward := (hbest _ _ horigin).mpr rfl
      exact horigin (((hbest _ _ horigin).mp ((hiff _ horigin).mpr htoward)).symm.trans hstored)
    · have htoward := (hbest _ _ hstored).mpr rfl
      exact ((hbest _ _ hstored).mp ((hiff _ hstored).mp htoward)).symm

end

/-! ### Calls -/

/-- Packets went to the gateway, or to none. -/
def HandedTo (hop : Option Ipv4Address) (gateways : List Ipv4Address) : Prop :=
  (gateways = [] ↔ hop = none) ∧ ∀ a ∈ gateways, hop = some a

theorem HandedTo.unique {hop hop' : Option Ipv4Address} {gateways : List Ipv4Address}
    (h : HandedTo hop gateways) (h' : HandedTo hop' gateways) : hop = hop' := by
  cases gateways with
  | nil => rw [h.1.mp rfl, h'.1.mp rfl]
  | cons a gateways => rw [h.2 a List.mem_cons_self, h'.2 a List.mem_cons_self]

section
variable {E : Env β} {now : Time} {n : Node}

theorem routeOutput_nextHop {chance : Chance} {p : Packet} {header : Ipv4Header}
    {oif : Option NetDevice} {sockerr : SocketErrno} {r : RouteOutputResult}
    (h : n.routeOutput E now chance (some p) header oif sockerr = .ok r)
    (hunicast : n.RoutesUnicast header) (hoif : oif = none ∨ oif = some 1) :
    r.nextHop = (n.outputNextHop E now header.destination).1 := by
  rcases routeOutput_ok h with ⟨-, p', h⟩ | ⟨hp, -⟩
  · replace h := routeUnicast_of_routePacket hunicast h
    obtain ⟨-, ⟨hnone, hdeferred, -⟩ | ⟨-, -, -, hhop⟩⟩ := routeUnicast_ok h
    · rw [hdeferred.nextHop, hnone]
    · rw [hhop, if_neg]
      rintro ⟨hnone, hone⟩
      exact hoif.elim hnone hone
  · cases hp

theorem forwarding_handedTo {m : Node} {es : List Effect} {p : Packet} {header : Ipv4Header}
    {ucb ecb : Callback} (h : n.forwarding E now p header ucb ecb = .ok (m, es)) :
    HandedTo (n.forwardNextHop E now header.destination).1 (Effect.gateways es) := by
  rw [forwarding_gateways h]
  exact ⟨Option.toList_eq_nil_iff, fun a ha => Option.mem_toList.mp ha⟩

theorem sendPacketFromQueue_handedTo {dst : Ipv4Address} (h : n.queue.Holds now dst) :
    HandedTo (n.queueNextHop E now dst).1
      (Effect.gateways (n.sendPacketFromQueue E now dst).effects) := by
  cases hhop : (n.queueNextHop E now dst).1 with
  | none =>
    rw [sendPacketFromQueue_of_none hhop]
    exact ⟨by simp, nofun⟩
  | some nextHop =>
    rw [sendPacketFromQueue_of_some hhop]
    have hne := (gateways_sendQueued_ne_nil now dst nextHop n.myAddress n.queue.entries.length
      n.queue).mpr h
    refine ⟨by simp [hne], fun a ha => ?_⟩
    rw [gateways_sendQueued _ _ _ _ _ _ a ha]

end

/-- For a packet of the node's own, a relayed one and a deferred one to the same
destination: the three go to the same gateway, or all wait, exactly if the
destination is a neighbour or the best neighbour is the same in both directions. -/
theorem paths_agree_iff (E : Env β) (now : Time) (chance : Chance) (p p' : Packet)
    (header header' : Ipv4Header) (oif : Option NetDevice) (sockerr : SocketErrno)
    (ucb ecb : Callback) (n m : Node) (r : RouteOutputResult) (es : List Effect)
    (hn : Settled now header.destination n) (hunicast : n.RoutesUnicast header)
    (hoif : oif = none ∨ oif = some 1)
    (hr : n.routeOutput E now chance (some p) header oif sockerr = .ok r)
    (hdst : header'.destination = header.destination)
    (hf : n.forwarding E now p' header' ucb ecb = .ok (m, es))
    (hq : n.queue.Holds now header.destination) :
    (HandedTo r.nextHop (Effect.gateways es) ∧ HandedTo r.nextHop
        (Effect.gateways (n.sendPacketFromQueue E now header.destination).effects) ↔
      n.neighbors.isNeighbour header.destination = true ∨ SameBest E now header.destination n) ∧
    (NeighborTable.Exact β → (SameBest E now header.destination n ↔ ∀ a ≠ Ipv4Address.getZero,
      (IsBestToward E n (n.nodesPosition.getPosition header.destination) a ↔
        IsBestToward E n ⟨0, 0, 0⟩ a))) := by
  have hrelayed := forwarding_handedTo hf
  have hqueued := sendPacketFromQueue_handedTo (E := E) hq
  rw [hdst] at hrelayed
  rw [routeOutput_nextHop hr hunicast hoif, outputNextHop_eq_queueNextHop hn,
    ← forwardNextHop_eq_queueNextHop_iff hn]
  refine ⟨⟨fun h => hrelayed.unique h.1, fun h => ⟨?_, hqueued⟩⟩, sameBest_iff hn⟩
  rw [← h]
  exact hrelayed

/-! ### A neighbour at the origin -/

/-- Node 1 of the sample at (5, 0, 0) with the velocity (0, 1, 0), with a neighbour at the
origin that has the velocity (0, 2, 0) and a packet for 10.1.1.7 in the queue. -/
def aside : Node :=
  { Sample.node 1 with
    position := ⟨5, 0, 0⟩
    velocity := ⟨0, 1, 0⟩
    neighbors := NeighborTable.addEntry 0 (.ofOctets 10 1 1 9) ⟨0, 0, 0⟩ ⟨0, 2, 0⟩ {}
    queue := { entries := [⟨⟨[], 6, false⟩, ⟨.ofOctets 10 1 1 2, .ofOctets 10 1 1 7⟩, 0, 0, 1⟩] } }

def asideHeader : Ipv4Header := ⟨.ofOctets 10 1 1 2, .ofOctets 10 1 1 7⟩

theorem aside_settled : Settled 0 asideHeader.destination aside := by
  refine ⟨fun a e he => ?_, by decide +kernel, by decide, by decide⟩
  rw [aside, NeighborTable.addEntry, EntryTable.getElem?_addEntry] at he
  split_ifs at he with ha
  · cases he
    rw [← ha]
    decide
  · simp at he

/-- The node sends its own packet to the neighbour. -/
theorem aside_routeOutput : ∃ r, aside.routeOutput Sample.env 0 Sample.chance (some ⟨[], 5, false⟩)
    asideHeader none .errorNotError = .ok r ∧
      decide (r.nextHop = some (.ofOctets 10 1 1 9)) = true :=
  exists_of_any (by decide +kernel)

/-- A packet it relays is deferred. -/
theorem aside_forwarding : ∃ q, aside.forwarding Sample.env 0 ⟨[], 7, false⟩ asideHeader 0 0 =
    .ok q ∧ decide (Effect.gateways q.2 = []) = true :=
  exists_of_any (by decide +kernel)

theorem paths_agree_iff_sample : ∃ r q,
    aside.routeOutput Sample.env 0 Sample.chance (some ⟨[], 5, false⟩) asideHeader none
        .errorNotError = .ok r ∧
      aside.forwarding Sample.env 0 ⟨[], 7, false⟩ asideHeader 0 0 = .ok q ∧
      (HandedTo r.nextHop (Effect.gateways q.2) ∧ HandedTo r.nextHop
          (Effect.gateways
            (aside.sendPacketFromQueue Sample.env 0 asideHeader.destination).effects) ↔
        aside.neighbors.isNeighbour asideHeader.destination = true ∨
          SameBest Sample.env 0 asideHeader.destination aside) := by
  obtain ⟨r, hr, -⟩ := aside_routeOutput
  obtain ⟨q, hq, -⟩ := aside_forwarding
  exact ⟨r, q, hr, hq, (paths_agree_iff Sample.env 0 Sample.chance ⟨[], 5, false⟩ ⟨[], 7, false⟩
    asideHeader asideHeader none .errorNotError 0 0 aside q.1 r q.2 aside_settled
    (by decide +kernel)
    (.inl rfl) hr rfl hq (by decide +kernel)).1⟩

/-- The node sends its own packet to the neighbour and defers the one it relays. -/
theorem paths_disagree :
    ¬ ∀ (E : Env ℚ) (now : Time) (chance : Chance) (p p' : Packet) (header header' : Ipv4Header)
      (oif : Option NetDevice) (sockerr : SocketErrno) (ucb ecb : Callback) (n m : Node)
      (r : RouteOutputResult) (es : List Effect), Settled now header.destination n →
      n.RoutesUnicast header → (oif = none ∨ oif = some 1) →
      n.routeOutput E now chance (some p) header oif sockerr = .ok r →
      header'.destination = header.destination →
      n.forwarding E now p' header' ucb ecb = .ok (m, es) →
      n.queue.Holds now header.destination →
      HandedTo r.nextHop (Effect.gateways es) ∧ HandedTo r.nextHop
        (Effect.gateways (n.sendPacketFromQueue E now header.destination).effects) := by
  intro h
  obtain ⟨r, hr, hhop⟩ := aside_routeOutput
  obtain ⟨q, hq, hnone⟩ := aside_forwarding
  have hsame := (h _ _ _ _ _ _ asideHeader none _ _ _ _ q.1 r q.2 aside_settled (by decide +kernel)
    (.inl rfl) hr rfl hq (by decide +kernel)).1
  rw [of_decide_eq_true hhop, of_decide_eq_true hnone] at hsame
  cases hsame.1.mp rfl

end SAeroRP.NextHopPaths
