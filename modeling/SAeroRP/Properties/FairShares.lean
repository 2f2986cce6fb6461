import SAeroRP.Properties.DefaultSlots
import SAeroRP.Properties.SlotSequence

/-! Default slots on the channel. In whatever frame and wherever in it one begins to count, of
as many slots as there are in a frame no node gets two more than another. -/

namespace SAeroRP

open Library

namespace TdmaHelper

variable {H : TdmaHelper} {i slot : ℕ}

theorem Partitioned.owner_eq_iff (h : H.Partitioned) (hrows : H.numRows < 4294967296)
    (hi : i < H.numRows) (hslot : slot + 1 < H.numCols) :
    H.owner slot = some (UInt32.ofNat i) ↔ H.slotAllotmentArray i (slot + 1) = 1 := by
  obtain ⟨k, ⟨hk, hone⟩, hunique⟩ := h.owner (slot + 1) (Nat.succ_pos slot) hslot
  rw [owner_eq_some hk hone hunique, h.ids k hk, Option.some_inj]
  constructor
  · intro heq
    have hnat := congrArg UInt32.toNat heq
    rw [UInt32.toNat_ofNat_of_lt' (hk.trans hrows), UInt32.toNat_ofNat_of_lt' (hi.trans hrows)]
      at hnat
    exact hnat ▸ hone
  · intro hone'
    rw [hunique i ⟨hi, hone'⟩]

/-- The slots of a node in the columns of a frame. -/
theorem Partitioned.count_owner (h : H.Partitioned) (hrows : H.numRows < 4294967296)
    (hi : i < H.numRows) :
    ((List.range (H.numCols - 1)).map H.owner).count (some (UInt32.ofNat i)) = H.slotCount i := by
  have hcard : H.slotCount i =
      (List.range' 1 (H.numCols - 1)).countP fun j => H.slotAllotmentArray i j = 1 :=
    List.countP_eq_length_filter.symm
  rw [hcard, List.range'_eq_map_range, List.count, List.countP_map, List.countP_map]
  refine List.countP_congr fun slot hslot => ?_
  rw [List.mem_range] at hslot
  rw [Function.comp_apply, Function.comp_apply, beq_iff_eq, decide_eq_true_iff, Nat.add_comm 1,
    h.owner_eq_iff hrows hi (by omega)]

/-- The same wherever in the frame one begins to count. -/
theorem Partitioned.count_window (h : H.Partitioned) (hrows : H.numRows < 4294967296)
    (hi : i < H.numRows) (a : ℕ) :
    ((List.range' a (H.numCols - 1)).map fun k => H.owner (k % (H.numCols - 1))).count
      (some (UInt32.ofNat i)) = H.slotCount i := by
  have hperm := (perm_map_mod a (H.numCols - 1)).map H.owner
  rw [List.map_map] at hperm
  rw [← h.count_owner hrows hi]
  exact hperm.count_eq _

theorem exists_create (memory : ℕ → ℕ → UInt32) {numNodes numSlots : UInt32}
    (hnodes : 1 ≤ numNodes) (hslots : numSlots.toNat < 2147483648) :
    ∃ H, create memory numNodes numSlots = .ok H ∧ H.numRows = numNodes.toNat ∧
      H.numCols = numSlots.toNat + 1 ∧ H.devices = [] ∧ H.Partitioned := by
  have hcols : (numSlots + 1).toNat = numSlots.toNat + 1 := by
    rw [UInt32.toNat_add, UInt32.toNat_one]
    omega
  have hrows : 0 < numNodes.toNat := UInt32.le_iff_toNat_le.mp hnodes
  let H : TdmaHelper :=
    { slotAllotmentArray := memory, numRows := numNodes.toNat, numCols := numSlots.toNat + 1 }
  refine ⟨H.shared, ?_, rfl, rfl, rfl, partitioned_shared (H := H) hrows (Nat.succ_pos _)⟩
  rw [create, hcols, allocate2D_eq (H := H) (Nat.succ_pos _), ok_bind]
  exact setDefaultSlots_eq (H := H.allocated) hrows numNodes.toNat_lt (Nat.succ_pos _) hslots

/-- When devices are installed on all nodes of a helper with default slots, in whatever order,
then in every run any two nodes get the same number of slots, or one more, of as many successive
slots as there are in a frame. -/
theorem default_slots_fair (memory : ℕ → ℕ → UInt32) (numNodes numSlots : UInt32)
    (hnodes : 1 ≤ numNodes) (hslots : 1 ≤ numSlots) (hlt : numSlots.toNat < 2147483648)
    (created : TdmaController) (hpos : 0 < created.slotTime) (nodes : List UInt32)
    (hperm : nodes.Perm ((List.range numNodes.toNat).map UInt32.ofNat)) :
    ∃ H H' c, create memory numNodes numSlots = .ok H ∧
      (H.setTdmaControllerHelper created).install nodes = .ok H' ∧ H'.controller = some c ∧
      ∀ change s tr u, s.Idle → Run (Tdma.Step c change) s tr u →
        ∀ a, a + numSlots.toNat ≤ (u.granted.flatMap (Tdma.slotsOf c)).length →
          ∀ i < numNodes.toNat, ∀ k < numNodes.toNat,
            let window := (((u.granted.flatMap (Tdma.slotsOf c)).map (nodes[·]?)).drop a).take
              numSlots.toNat
            window.count (some (UInt32.ofNat i)) ≤ window.count (some (UInt32.ofNat k)) + 1 := by
  obtain ⟨H, hcreate, hrows, hcols, hnew, hpart⟩ := exists_create memory hnodes hlt
  have hslots' : 1 ≤ numSlots.toNat := UInt32.le_iff_toNat_le.mp hslots
  have hrows' : H.numRows < 4294967296 := hrows ▸ numNodes.toNat_lt
  have hcount := fun i hi => hpart.count_window hrows' (i := i) (hrows ▸ hi)
  have hcomplete := hpart.complete hrows' (by omega)
  have hlists : H.ListsAll nodes := by
    refine hperm.trans (List.Perm.of_eq ?_)
    rw [← hrows]
    exact List.map_congr_left fun i hi => (hpart.ids i (List.mem_range.mp hi)).symm
  have hinstall := install_setTdmaControllerHelper created nodes H
  rw [if_pos (by simp [hcomplete.accepts])] at hinstall
  refine ⟨_, _, _, hcreate, hinstall, rfl, fun change s tr u hs hrun a ha i hi k hk => ?_⟩
  obtain ⟨m, hm⟩ := hcomplete.follows hlists hnew hpos change s tr u hs hrun
  have hlength := congrArg List.length hm
  rw [List.length_map, List.length_map, List.length_range] at hlength
  have hsize : H.numCols - 1 = numSlots.toNat := by omega
  have hwindow : (((u.granted.flatMap (Tdma.slotsOf (H.assigned created nodes))).map
      (nodes[·]?)).drop a).take numSlots.toNat =
        (List.range' a numSlots.toNat).map fun k => H.owner (k % numSlots.toNat) := by
    rw [hm, hsize, ← List.map_drop, ← List.map_take, List.range_eq_range', List.drop_range',
      List.take_range'_of_length_ge (by omega)]
    simp
  simp only [hwindow]
  rw [← hsize, hcount i hi a, hcount k hk a]
  exact hpart.even i (hrows ▸ hi) k (hrows ▸ hk)

/-- Three nodes and seven slots, installed in another order. -/
theorem default_slots_fair_sample : ∃ H H' c, create (fun _ _ => 9) 3 7 = .ok H ∧
    (H.setTdmaControllerHelper Sample.controller).install [2, 0, 1] = .ok H' ∧
    H'.controller = some c ∧
    ∀ change s tr u, s.Idle → Run (Tdma.Step c change) s tr u →
      ∀ a, a + 7 ≤ (u.granted.flatMap (Tdma.slotsOf c)).length → ∀ i < 3, ∀ k < 3,
        let window := (((u.granted.flatMap (Tdma.slotsOf c)).map
          (([2, 0, 1] : List UInt32)[·]?)).drop a).take 7
        window.count (some (UInt32.ofNat i)) ≤ window.count (some (UInt32.ofNat k)) + 1 :=
  default_slots_fair (fun _ _ => 9) 3 7 (by decide) (by decide) (by decide) Sample.controller
    (by decide) [2, 0, 1] (by decide)

end TdmaHelper

end SAeroRP
