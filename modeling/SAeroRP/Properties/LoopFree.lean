import SAeroRP.Library.Descent
import SAeroRP.System.Sample

/-! Relaying on a frozen snapshot. A node hands a packet to the destination or to a
neighbour whose time to intercept the origin beats its own. The neighbour computes
the same time for itself, since tables and nodes agree on positions and
velocities, so the times along the path of a packet get better and better, and no
node is visited twice. That 0 stands for never does no harm: no time is beaten by
0, and 0 is beaten by every other. -/

namespace SAeroRP.LoopFree

open Library Node

variable {β : Type} [Preorder β] [DecidableLT β] [DecidableEq β] [Zero β]

/-- Nodes at one moment, whose tables list nodes with their true positions and
velocities. -/
structure Snapshot (β : Type) where
  env : Env β
  now : Time
  nodes : Finset Ipv4Address
  node : Ipv4Address → Node
  range : ℚ
  listed : ∀ a ∈ nodes, ∀ (b : Ipv4Address) (e : NeighborTableEntry × Time),
    (node a).neighbors.table[b]? = some e →
      b ∈ nodes ∧ e.1 = ⟨(node b).position, (node b).velocity⟩
  commonRange : ∀ a ∈ nodes, (node a).neighbors.range = range

namespace Snapshot

variable (S : Snapshot β) (header : Ipv4Header)

/-- A node other than the destination forwards a packet with the header, and hands
it to the gateway. -/
def Relays (a b : Ipv4Address) : Prop :=
  a ≠ header.destination ∧ ∃ p ucb ecb m es,
    (S.node a).forwarding S.env S.now p header ucb ecb = .ok (m, es) ∧ b ∈ Effect.gateways es

/-- The time to intercept the origin. -/
def time (a : Ipv4Address) : β :=
  S.env.tti ⟨0, 0, 0⟩ (S.node a).position (S.node a).velocity S.range

/-- The second node is the destination or has the better time. -/
def Descends (a b : Ipv4Address) : Prop :=
  a ≠ header.destination ∧ (b = header.destination ∨ NeighborTable.Beats (S.time b) (S.time a))

end Snapshot

variable {S : Snapshot β} {header : Ipv4Header}

omit [DecidableLT β] [DecidableEq β] in
theorem descends_trans (a b c : Ipv4Address) (hab : S.Descends header a b)
    (hbc : S.Descends header b c) : S.Descends header a c := by
  refine ⟨hab.1, hbc.2.imp id fun hbeats => ?_⟩
  exact NeighborTable.beats_trans _ _ _ hbeats (hab.2.resolve_left hbc.1)

omit [DecidableLT β] [DecidableEq β] in
theorem not_descends_self (a : Ipv4Address) : ¬ S.Descends header a a := by
  rintro ⟨hne, heq | hbeats⟩
  · exact hne heq
  · exact NeighborTable.not_beats_self _ hbeats

omit [Preorder β] [DecidableLT β] [DecidableEq β] [Zero β] in
/-- What an entry that survives the purge says about a neighbour. -/
theorem listed_of_purge {a b : Ipv4Address} (ha : a ∈ S.nodes) {e : NeighborTableEntry × Time}
    (he : ((S.node a).neighbors.purge S.now).table[b]? = some e) :
    b ∈ S.nodes ∧ e.1 = ⟨(S.node b).position, (S.node b).velocity⟩ :=
  S.listed a ha b e (EntryTable.getElem?_purge_eq_some.mp he).1

/-- One hop of Forwarding stays in the snapshot and goes down. -/
theorem descends_of_relays {a b : Ipv4Address} (ha : a ∈ S.nodes) (h : S.Relays header a b) :
    b ∈ S.nodes ∧ S.Descends header a b := by
  obtain ⟨hne, p, ucb, ecb, m, es, hforward, hb⟩ := h
  rw [forwarding_gateways hforward, Option.mem_toList, forwardNextHop_eq] at hb
  split_ifs at hb with hneighbour hbest
  · cases hb
    obtain ⟨e, he⟩ := Option.isSome_iff_exists.mp hneighbour
    exact ⟨(listed_of_purge ha he).1, hne, .inl rfl⟩
  · cases hb
    obtain ⟨v, hv, hbeats⟩ := (NeighborTable.bestNeighbor_beats ..).resolve_left hbest
    obtain ⟨e, he, hv⟩ := NeighborTable.mem_candidates.mp hv
    obtain ⟨hin, hentry⟩ := listed_of_purge ha he
    have hrange : ((S.node a).neighbors.purge S.now).range = S.range := S.commonRange a ha
    rw [hentry, hrange] at hv
    have htime : S.time ((S.node a).bestToward S.env S.now ⟨0, 0, 0⟩) = v := hv
    rw [S.commonRange a ha, ← htime] at hbeats
    exact ⟨hin, hne, .inr hbeats⟩

/-- A packet visits no node twice and at most as many as there are, and its path
ends: at the destination, or where the packet is deferred. -/
theorem loop_free (S : Snapshot β) (header : Ipv4Header) (a : Ipv4Address) (ha : a ∈ S.nodes) :
    (∀ l, (a :: l).IsChain (S.Relays header) → (a :: l).Nodup ∧ (a :: l).length ≤ S.nodes.card) ∧
      ∃ l, (a :: l).IsChain (S.Relays header) ∧
        ∀ b, ¬ S.Relays header ((a :: l).getLast (List.cons_ne_nil a l)) b := by
  have hnext : ∀ a b, a ∈ S.nodes → S.Relays header a b → b ∈ S.nodes ∧ S.Descends header a b :=
    fun a b ha h => descends_of_relays ha h
  refine ⟨fun l hl => ⟨?_, ?_⟩, ?_⟩
  · exact nodup_of_descends descends_trans hnext not_descends_self ha hl
  · exact length_le_card_of_descends descends_trans hnext not_descends_self ha hl
  · exact exists_complete_of_descends descends_trans hnext not_descends_self ha

/-- Nodes 1 and 2 of the sample, where node 2 has the less time to the origin and node 1
knows it. -/
def pair : Snapshot ℚ where
  env := Sample.env
  now := 0
  nodes := {.ofOctets 10 1 1 2, .ofOctets 10 1 1 3}
  node a :=
    if a = .ofOctets 10 1 1 2 then
      { Sample.node 1 with
        velocity := ⟨0, 2, 0⟩
        neighbors := NeighborTable.addEntry 0 (.ofOctets 10 1 1 3) ⟨5, 0, 0⟩ ⟨0, 1, 0⟩ {} }
    else { Sample.node 2 with position := ⟨5, 0, 0⟩, velocity := ⟨0, 1, 0⟩ }
  range := 27800
  listed a _ b e he := by
    split_ifs at he with h
    · rw [NeighborTable.addEntry, EntryTable.getElem?_addEntry] at he
      split_ifs at he with hb
      · cases he
        subst hb
        exact ⟨by decide, rfl⟩
      · simp at he
    · simp [Sample.node] at he
  commonRange a _ := by
    split_ifs <;> rfl

def pairHeader : Ipv4Header := ⟨.ofOctets 10 1 1 2, .ofOctets 10 1 1 7⟩

theorem loop_free_pair : pair.Relays pairHeader (.ofOctets 10 1 1 2) (.ofOctets 10 1 1 3) ∧
    (∀ l, (Ipv4Address.ofOctets 10 1 1 2 :: l).IsChain (pair.Relays pairHeader) →
        (Ipv4Address.ofOctets 10 1 1 2 :: l).Nodup ∧
          (Ipv4Address.ofOctets 10 1 1 2 :: l).length ≤ pair.nodes.card) ∧
      ∃ l, (Ipv4Address.ofOctets 10 1 1 2 :: l).IsChain (pair.Relays pairHeader) ∧
        ∀ b, ¬ pair.Relays pairHeader
          ((Ipv4Address.ofOctets 10 1 1 2 :: l).getLast (List.cons_ne_nil _ l)) b := by
  refine ⟨⟨by decide, ?_⟩, loop_free pair pairHeader _ (by decide)⟩
  have hany : ((pair.node (.ofOctets 10 1 1 2)).forwarding pair.env pair.now ⟨[], 5, false⟩
      pairHeader 0 0).toOption.any (fun q => .ofOctets 10 1 1 3 ∈ Effect.gateways q.2) = true := by
    decide +kernel
  obtain ⟨q, hforward, hb⟩ := exists_of_any hany
  exact ⟨_, _, _, q.1, q.2, hforward, of_decide_eq_true hb⟩

end SAeroRP.LoopFree
