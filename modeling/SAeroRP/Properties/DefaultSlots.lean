import SAeroRP.Tdma.SlotAllotment

/-! The default slots share out the frame. Every slot has exactly one node, and no node has
two slots more than another, whatever the numbers of nodes and slots. -/

namespace SAeroRP

open Library

namespace TdmaHelper

/-- The number of slots of a row. -/
def slotCount (H : TdmaHelper) (i : ℕ) : ℕ :=
  ((Finset.Ico 1 H.numCols).filter fun j => H.slotAllotmentArray i j = 1).card

/-- The rows are numbered, and each slot is the slot of one of them. -/
structure Partitioned (H : TdmaHelper) : Prop where
  ids : ∀ i < H.numRows, H.slotAllotmentArray i 0 = UInt32.ofNat i
  entries : ∀ i < H.numRows, ∀ j, 1 ≤ j → j < H.numCols →
    H.slotAllotmentArray i j = 0 ∨ H.slotAllotmentArray i j = 1
  owner : ∀ j, 1 ≤ j → j < H.numCols → ∃! i, i < H.numRows ∧ H.slotAllotmentArray i j = 1
  even : ∀ i < H.numRows, ∀ k < H.numRows, H.slotCount i ≤ H.slotCount k + 1

/-- The table with default slots. -/
noncomputable def shared (H : TdmaHelper) : TdmaHelper := H.allocated.fill H.allocated.shares 1

variable {H : TdmaHelper}

theorem entry_shared {i j : ℕ} (hi : i < H.numRows) (hj : j < H.numCols) :
    H.shared.slotAllotmentArray i j =
      if Share H.numRows (H.numCols - 1) i j then 1 else if j = 0 then UInt32.ofNat i else 0 := by
  have hentry : H.allocated.slotAllotmentArray i j = if j = 0 then UInt32.ofNat i else 0 :=
    if_pos ⟨hi, hj⟩
  by_cases hshare : Share H.numRows (H.numCols - 1) i j
  · rw [if_pos hshare]
    exact entry_fill_of_mem ⟨hi, hshare⟩
  · rw [if_neg hshare, ← hentry]
    exact entry_fill_of_notMem fun hmem => hshare hmem.2

/-- A slot is a row's exactly when it is in its share. -/
theorem entry_eq_one_iff {i j : ℕ} (hi : i < H.numRows) (hle : 1 ≤ j) (hj : j < H.numCols) :
    H.shared.slotAllotmentArray i j = 1 ↔
      Share H.numRows (H.numCols - 1) i j := by
  rw [entry_shared hi hj]
  split_ifs with hshare hzero
  · simp [hshare]
  · omega
  · simp [hshare]

theorem slotCount_shared {i : ℕ} (hi : i < H.numRows) (hcols : 0 < H.numCols) :
    H.shared.slotCount i =
      ((Finset.Ico 1 (H.numCols - 1 + 1)).filter (Share H.numRows (H.numCols - 1) i)).card := by
  rw [Nat.sub_add_cancel hcols]
  refine congrArg Finset.card (Finset.filter_congr fun j hj => ?_)
  obtain ⟨hle, hlt⟩ := Finset.mem_Ico.mp hj
  exact entry_eq_one_iff hi hle hlt

theorem partitioned_shared (hrows : 0 < H.numRows) (hcols : 0 < H.numCols) :
    H.shared.Partitioned where
  ids := fun i (hi : i < H.numRows) => by
    have hnone : ¬ Share H.numRows (H.numCols - 1) i 0 := fun h => absurd h.pos (by decide)
    rw [entry_shared hi hcols, if_neg hnone, if_pos rfl]
  entries := fun i (hi : i < H.numRows) j hle (hj : j < H.numCols) => by
    rw [entry_shared hi hj]
    split_ifs with hshare hzero
    · exact .inr rfl
    · omega
    · exact .inl rfl
  owner := fun j hle (hj : j < H.numCols) => by
    obtain ⟨i, hi, hshare⟩ := exists_share (n := H.numCols - 1) hrows hle (by omega)
    refine ⟨i, ⟨hi, (entry_eq_one_iff hi hle hj).mpr hshare⟩, ?_⟩
    rintro k ⟨hk, hone⟩
    exact Share.unique hk hi ((entry_eq_one_iff (H := H) hk hle hj).mp hone) hshare
  even := fun i (hi : i < H.numRows) k (hk : k < H.numRows) => by
    rw [slotCount_shared hi hcols, slotCount_shared hk hcols]
    exact card_share_le hi hk

/-- The constructor allocates the table it is asked for, writes nothing outside of it, and
shares out its slots. -/
theorem create_partitions (memory : ℕ → ℕ → UInt32) (numNodes numSlots : UInt32)
    (hnodes : 1 ≤ numNodes) (hslots : numSlots.toNat < 2147483648) :
    ∃ H, create memory numNodes numSlots = .ok H ∧ H.numRows = numNodes.toNat ∧
      H.numCols = numSlots.toNat + 1 ∧ H.Partitioned := by
  have hcols : (numSlots + 1).toNat = numSlots.toNat + 1 := by
    rw [UInt32.toNat_add, UInt32.toNat_one]
    omega
  have hrows : 0 < numNodes.toNat := UInt32.le_iff_toNat_le.mp hnodes
  let H : TdmaHelper :=
    { slotAllotmentArray := memory, numRows := numNodes.toNat, numCols := numSlots.toNat + 1 }
  refine ⟨H.shared, ?_, rfl, rfl,
    partitioned_shared (H := H) hrows (Nat.succ_pos _)⟩
  rw [create, hcols, allocate2D_eq (H := H) (Nat.succ_pos _), ok_bind]
  exact setDefaultSlots_eq (H := H.allocated) hrows numNodes.toNat_lt (Nat.succ_pos _) hslots

/-- Three nodes, seven slots. -/
theorem create_partitions_uneven : ∃ H, create (fun _ _ => 9) 3 7 = .ok H ∧ H.numRows = 3 ∧
    H.numCols = 8 ∧ H.Partitioned :=
  create_partitions (fun _ _ => 9) 3 7 (by decide) (by decide)

/-- A table that shares out at least one slot passes the checks of AssignTdmaSlots. -/
theorem Partitioned.complete (h : H.Partitioned) (hrows : H.numRows < 4294967296)
    (hcols : 2 ≤ H.numCols) : H.Complete where
  slots := hcols
  ids := fun i hi k hk heq => by
    rw [h.ids i hi, h.ids k hk] at heq
    have hnat := congrArg UInt32.toNat heq
    rwa [UInt32.toNat_ofNat_of_lt' (hi.trans hrows),
      UInt32.toNat_ofNat_of_lt' (hk.trans hrows)] at hnat
  entries := h.entries
  owner := h.owner

end TdmaHelper

end SAeroRP
