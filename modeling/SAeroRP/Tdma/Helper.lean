import SAeroRP.Library.Fold
import SAeroRP.Tdma.Controller

/-! The helper that sets up TDMA devices. It holds a table with a row for each node,
the node's id and then its slots, and tells the controller the slots of every node
a device is installed on. -/

namespace SAeroRP

open Library

structure TdmaHelper where
  controller : Option TdmaController := none
  slotAllotmentArray : ℕ → ℕ → UInt32
  numRows : ℕ
  numCols : ℕ
  /-- The nodes with devices and their MACs, which are numbered as they are created. -/
  devices : List (UInt32 × MacPtr) := []

namespace TdmaHelper

/-- SetTdmaControllerHelper, with the controller it creates. -/
def setTdmaControllerHelper (created : TdmaController) (H : TdmaHelper) : TdmaHelper :=
  { H with controller := some (created.setTotalSlotsAllowed (H.numCols - 1)) }

variable (H : TdmaHelper)

/-- The assertions of AssignTdmaSlots on one entry: it is 0 or 1, and no other row has
a 1 in a slot where it is 1. -/
def Exclusive (i j : ℕ) : Prop :=
  (H.slotAllotmentArray i j = 0 ∨ H.slotAllotmentArray i j = 1) ∧
    ∀ k < H.numRows, k ≠ i → ¬ (H.slotAllotmentArray k j = 1 ∧ H.slotAllotmentArray i j = 1)

instance (i j : ℕ) : Decidable (H.Exclusive i j) := inferInstanceAs (Decidable (_ ∧ _))

/-- The columns of the slots. -/
def slotColumns : List ℕ := List.range' 1 (H.numCols - 1)

/-- The loop of AssignTdmaSlots over one row. -/
def assignRow (mac : MacPtr) (i : ℕ) (c : TdmaController) : Except Fault TdmaController :=
  H.slotColumns.foldlM (fun c j =>
    if H.Exclusive i j then
      .ok (if H.slotAllotmentArray i j = 1 then c.addTdmaSlot (j - 1) mac else c)
    else .error .assertion) c

def assignTdmaSlots (mac : MacPtr) (nodeId : UInt32) (c : TdmaController) :
    Except Fault TdmaController :=
  (List.range H.numRows).foldlM (fun c i =>
    if H.slotAllotmentArray i 0 = nodeId then H.assignRow mac i c else .ok c) c

/-- A device with a new MAC is installed on every node of the list. -/
def install (nodes : List UInt32) : Except Fault TdmaHelper :=
  match H.controller with
  | none => .error .assertion
  | some c => do
    let devices := nodes.zipIdx H.devices.length
    let c ← devices.foldlM (fun c d => H.assignTdmaSlots d.2 d.1 c) c
    return { H with controller := some c, devices := H.devices ++ devices }

/-! ### What is assigned -/

/-- A row of the node has a 1 for the slot. -/
def Owns (node : UInt32) (slot : ℕ) : Prop :=
  slot + 1 < H.numCols ∧ ∃ i < H.numRows, H.slotAllotmentArray i 0 = node ∧
    H.slotAllotmentArray i (slot + 1) = 1

instance (node : UInt32) (slot : ℕ) : Decidable (H.Owns node slot) :=
  inferInstanceAs (Decidable (_ ∧ _))

/-- All entries of the rows of a node pass the assertions. -/
def Accepts (node : UInt32) : Prop :=
  ∀ i ∈ List.range H.numRows, H.slotAllotmentArray i 0 = node →
    ∀ j ∈ H.slotColumns, H.Exclusive i j

instance (node : UInt32) : Decidable (H.Accepts node) :=
  inferInstanceAs (Decidable (∀ _ ∈ _, _))

/-- The slots of a row, without the assertions. -/
def addRow (mac : MacPtr) (c : TdmaController) (i : ℕ) : TdmaController :=
  H.slotColumns.foldl
    (fun c j => if H.slotAllotmentArray i j = 1 then c.addTdmaSlot (j - 1) mac else c) c

/-- The slots of a node, without the assertions. -/
def addNode (c : TdmaController) (d : UInt32 × MacPtr) : TdmaController :=
  (List.range H.numRows).foldl
    (fun c i => if H.slotAllotmentArray i 0 = d.1 then H.addRow d.2 c i else c) c

theorem assignRow_eq (mac : MacPtr) (i : ℕ) (c : TdmaController) :
    H.assignRow mac i c =
      if ∀ j ∈ H.slotColumns, H.Exclusive i j then .ok (H.addRow mac c i) else .error .assertion :=
  foldlM_ite ..

theorem assignTdmaSlots_eq (mac : MacPtr) (node : UInt32) (c : TdmaController) :
    H.assignTdmaSlots mac node c =
      if H.Accepts node then .ok (H.addNode c (node, mac)) else .error .assertion := by
  have hrow : (fun c i => if H.slotAllotmentArray i 0 = node then H.assignRow mac i c else .ok c) =
      fun c i =>
        if H.slotAllotmentArray i 0 = node → ∀ j ∈ H.slotColumns, H.Exclusive i j then
          .ok (if H.slotAllotmentArray i 0 = node then H.addRow mac c i else c)
        else Except.error Fault.assertion := by
    funext c i
    rw [assignRow_eq]
    by_cases hi : H.slotAllotmentArray i 0 = node <;> simp [hi]
  rw [assignTdmaSlots, hrow]
  exact foldlM_ite ..

/-- Install succeeds when the rows of all nodes pass the assertions. -/
theorem install_eq (nodes : List UInt32) {c : TdmaController} (hc : H.controller = some c) :
    H.install nodes =
      if ∀ d ∈ nodes.zipIdx H.devices.length, H.Accepts d.1 then
        .ok { H with
          controller := some ((nodes.zipIdx H.devices.length).foldl H.addNode c)
          devices := H.devices ++ nodes.zipIdx H.devices.length }
      else .error .assertion := by
  have hassign : (fun c (d : UInt32 × MacPtr) => H.assignTdmaSlots d.2 d.1 c) = fun c d =>
      if H.Accepts d.1 then .ok (H.addNode c d) else .error .assertion := by
    funext c d
    exact H.assignTdmaSlots_eq d.2 d.1 c
  simp only [install, hc, hassign, foldlM_ite]
  split_ifs <;> rfl

/-! ### The slots of the controller -/

section
variable {H}

theorem slotPtrs_addTdmaSlot (slotPos : ℕ) (mac : MacPtr) (c : TdmaController) (p : ℕ) :
    (c.addTdmaSlot slotPos mac).slotPtrs[p]? =
      (c.slotPtrs[p]?).or (if slotPos = p then some mac else none) := by
  rw [TdmaController.addTdmaSlot, Std.ExtTreeMap.getElem?_insertIfNew]
  by_cases hp : slotPos = p
  · subst hp
    cases hmac : c.slotPtrs[slotPos]? <;>
      simp [Std.ExtTreeMap.mem_iff_isSome_getElem?, hmac]
  · simp [hp]

theorem slotPtrs_addRow (mac : MacPtr) (c : TdmaController) (i p : ℕ) :
    (H.addRow mac c i).slotPtrs[p]? = (c.slotPtrs[p]?).or
      (if p + 1 < H.numCols ∧ H.slotAllotmentArray i (p + 1) = 1 then some mac else none) := by
  have hstep : ∀ (c : TdmaController) (j : ℕ),
      (if H.slotAllotmentArray i j = 1 then c.addTdmaSlot (j - 1) mac else c).slotPtrs[p]? =
        (c.slotPtrs[p]?).or
          (if H.slotAllotmentArray i j = 1 ∧ j - 1 = p then some mac else none) := by
    intro c j
    by_cases hj : H.slotAllotmentArray i j = 1
    · simp only [hj, if_true, true_and]
      exact slotPtrs_addTdmaSlot (j - 1) mac c p
    · simp [hj]
  -- the column of slot p is p + 1
  have hcolumn : (∃ j ∈ H.slotColumns, H.slotAllotmentArray i j = 1 ∧ j - 1 = p) ↔
      p + 1 < H.numCols ∧ H.slotAllotmentArray i (p + 1) = 1 := by
    simp only [slotColumns, List.mem_range'_1]
    constructor
    · rintro ⟨j, ⟨hle, hlt⟩, hone, rfl⟩
      rw [Nat.sub_add_cancel hle]
      exact ⟨by omega, hone⟩
    · rintro ⟨hlt, hone⟩
      exact ⟨p + 1, ⟨by omega, by omega⟩, hone, by omega⟩
  rw [addRow, foldl_or (fun c : TdmaController => c.slotPtrs[p]?) _ _ hstep, findSome?_ite,
    if_congr hcolumn rfl rfl]

theorem slotPtrs_addNode (c : TdmaController) (d : UInt32 × MacPtr) (p : ℕ) :
    (H.addNode c d).slotPtrs[p]? =
      (c.slotPtrs[p]?).or (if H.Owns d.1 p then some d.2 else none) := by
  have hstep : ∀ (c : TdmaController) (i : ℕ),
      (if H.slotAllotmentArray i 0 = d.1 then H.addRow d.2 c i else c).slotPtrs[p]? =
        (c.slotPtrs[p]?).or (if H.slotAllotmentArray i 0 = d.1 ∧ p + 1 < H.numCols ∧
          H.slotAllotmentArray i (p + 1) = 1 then some d.2 else none) := by
    intro c i
    by_cases hi : H.slotAllotmentArray i 0 = d.1
    · simp only [hi, if_true, true_and]
      exact slotPtrs_addRow d.2 c i p
    · simp [hi]
  have howner : (∃ i ∈ List.range H.numRows, H.slotAllotmentArray i 0 = d.1 ∧
      p + 1 < H.numCols ∧ H.slotAllotmentArray i (p + 1) = 1) ↔ H.Owns d.1 p := by
    simp only [List.mem_range, Owns]
    constructor
    · rintro ⟨i, hi, hid, hp, hone⟩
      exact ⟨hp, i, hi, hid, hone⟩
    · rintro ⟨hp, i, hi, hid, hone⟩
      exact ⟨i, hi, hid, hp, hone⟩
  rw [addNode, foldl_or (fun c : TdmaController => c.slotPtrs[p]?) _ _ hstep, findSome?_ite,
    if_congr howner rfl rfl]

/-- A slot is its first owner's, in the order in which the nodes are installed. -/
theorem slotPtrs_foldl_addNode (devices : List (UInt32 × MacPtr)) (c : TdmaController) (p : ℕ) :
    (devices.foldl H.addNode c).slotPtrs[p]? = (c.slotPtrs[p]?).or
      (devices.findSome? fun d => if H.Owns d.1 p then some d.2 else none) :=
  foldl_or (fun c : TdmaController => c.slotPtrs[p]?) _ _ (fun c d => slotPtrs_addNode c d p) _ _

/-- Assigning slots leaves the rest of the controller as it is. -/
theorem clear_foldl_addNode (devices : List (UInt32 × MacPtr)) (c : TdmaController) :
    { devices.foldl H.addNode c with slotPtrs := ∅ } = { c with slotPtrs := ∅ } := by
  have hrow : ∀ (mac : MacPtr) (c : TdmaController) (i : ℕ),
      { H.addRow mac c i with slotPtrs := ∅ } = { c with slotPtrs := ∅ } := fun mac c i =>
    foldl_same (fun c : TdmaController => { c with slotPtrs := ∅ }) _
      (fun c j => by split_ifs <;> rfl) _ _
  have hnode : ∀ (c : TdmaController) (d : UInt32 × MacPtr),
      { H.addNode c d with slotPtrs := ∅ } = { c with slotPtrs := ∅ } := fun c d =>
    foldl_same (fun c : TdmaController => { c with slotPtrs := ∅ }) _
      (fun c i => by
        split_ifs
        · exact hrow d.2 c i
        · rfl) _ _
  exact foldl_same (fun c : TdmaController => { c with slotPtrs := ∅ }) _ hnode _ _

/-- The controller when the nodes' slots have been assigned. -/
def assigned (created : TdmaController) (nodes : List UInt32) (H : TdmaHelper) : TdmaController :=
  (nodes.zipIdx H.devices.length).foldl H.addNode (created.setTotalSlotsAllowed (H.numCols - 1))

/-- Installing for the first time on the nodes of a list. -/
theorem install_setTdmaControllerHelper (created : TdmaController) (nodes : List UInt32)
    (H : TdmaHelper) :
    (H.setTdmaControllerHelper created).install nodes =
      if nodes.all fun node => H.Accepts node then
        .ok { H with
          controller := some (H.assigned created nodes)
          devices := H.devices ++ nodes.zipIdx H.devices.length }
      else .error .assertion := by
  have hall : (∀ d ∈ nodes.zipIdx H.devices.length, H.Accepts d.1) ↔
      nodes.all fun node => H.Accepts node := by
    simpa using forall_mem_zipIdx H.Accepts nodes H.devices.length
  rw [install_eq _ _ rfl]
  exact if_congr hall rfl rfl

theorem slotPtrs_assigned (created : TdmaController) (nodes : List UInt32) (p : ℕ) :
    (H.assigned created nodes).slotPtrs[p]? = (nodes.zipIdx H.devices.length).findSome? fun d =>
      if H.Owns d.1 p then some d.2 else none := by
  rw [assigned, slotPtrs_foldl_addNode]
  simp [TdmaController.setTotalSlotsAllowed]

/-- A slot has a MAC when one of the nodes owns it. -/
theorem isSome_slotPtrs_assigned (created : TdmaController) (nodes : List UInt32) (p : ℕ) :
    (H.assigned created nodes).slotPtrs[p]?.isSome ↔ ∃ node ∈ nodes, H.Owns node p := by
  rw [slotPtrs_assigned, List.findSome?_isSome_iff,
    ← exists_mem_zipIdx (fun node => H.Owns node p) nodes H.devices.length]
  refine exists_congr fun d => and_congr_right fun _ => ?_
  split_ifs with hown <;> simp [hown]

/-- A slot with one owner has the MAC of the device on it. -/
theorem slotPtrs_assigned_of_unique (created : TdmaController) {nodes : List UInt32} {p : ℕ}
    {d : UInt32 × MacPtr} (hd : d ∈ nodes.zipIdx H.devices.length) (hown : H.Owns d.1 p)
    (hunique : ∀ d' ∈ nodes.zipIdx H.devices.length, H.Owns d'.1 p → d' = d) :
    (H.assigned created nodes).slotPtrs[p]? = some d.2 := by
  have hsome := (isSome_slotPtrs_assigned (H := H) created nodes p).mpr
    ((exists_mem_zipIdx (fun node => H.Owns node p) _ _).mp ⟨d, hd, hown⟩)
  obtain ⟨mac, hmac⟩ := Option.isSome_iff_exists.mp hsome
  rw [hmac]
  rw [slotPtrs_assigned] at hmac
  obtain ⟨d', hd', hset⟩ := List.exists_of_findSome?_eq_some hmac
  split_ifs at hset with hown'
  rw [← hset, hunique d' hd' hown']

/-- Installing changes nothing but the slots of the controller. -/
theorem clear_assigned (created : TdmaController) (nodes : List UInt32) :
    { H.assigned created nodes with slotPtrs := ∅ } =
      created.setTotalSlotsAllowed (H.numCols - 1) := by
  rw [assigned, clear_foldl_addNode]
  rfl

theorem totalSlotsAllowed_assigned (created : TdmaController) (nodes : List UInt32) :
    (H.assigned created nodes).totalSlotsAllowed = H.numCols - 1 :=
  congrArg TdmaController.totalSlotsAllowed (clear_assigned (H := H) created nodes)

theorem times_assigned (created : TdmaController) (nodes : List UInt32) :
    (H.assigned created nodes).slotTime = created.slotTime ∧
      (H.assigned created nodes).gaurdTime = created.gaurdTime ∧
      (H.assigned created nodes).tdmaInterFrameTime = created.tdmaInterFrameTime := by
  have h := clear_assigned (H := H) created nodes
  have hslot := congrArg TdmaController.slotTime h
  have hgaurd := congrArg TdmaController.gaurdTime h
  have hinter := congrArg TdmaController.tdmaInterFrameTime h
  exact ⟨hslot, hgaurd, hinter⟩

/-- There is a slot, and every slot has a node of the list. -/
def SlotsTaken (nodes : List UInt32) (H : TdmaHelper) : Prop :=
  2 ≤ H.numCols ∧ ∀ j, 1 ≤ j → j < H.numCols → ∃ i < H.numRows,
    H.slotAllotmentArray i 0 ∈ nodes ∧ H.slotAllotmentArray i j = 1

theorem filled_assigned_iff (created : TdmaController) (nodes : List UInt32) :
    (H.assigned created nodes).Filled ↔ H.SlotsTaken nodes := by
  constructor
  · intro h
    have hpos := h.pos
    have hsome := h.isSome_iff
    simp only [totalSlotsAllowed_assigned, isSome_slotPtrs_assigned] at hpos hsome
    refine ⟨by omega, fun j hle hj => ?_⟩
    obtain ⟨node, hnode, -, i, hi, rfl, hone⟩ := (hsome (j - 1)).mpr (by omega)
    rw [Nat.sub_add_cancel hle] at hone
    exact ⟨i, hi, hnode, hone⟩
  · rintro ⟨hslots, htaken⟩
    refine ⟨by rw [totalSlotsAllowed_assigned]; omega, fun n => ?_⟩
    rw [isSome_slotPtrs_assigned, totalSlotsAllowed_assigned]
    constructor
    · rintro ⟨node, -, hn, -⟩
      omega
    · intro hn
      obtain ⟨i, hi, hnode, hone⟩ := htaken (n + 1) (by omega) (by omega)
      exact ⟨_, hnode, by omega, i, hi, rfl, hone⟩

/-! ### Tables without conflict -/

/-- There is a slot, ids are distinct, entries are 0 or 1, and every slot has exactly
one node. -/
structure Complete (H : TdmaHelper) : Prop where
  slots : 2 ≤ H.numCols
  ids : ∀ i < H.numRows, ∀ k < H.numRows,
    H.slotAllotmentArray i 0 = H.slotAllotmentArray k 0 → i = k
  entries : ∀ i < H.numRows, ∀ j, 1 ≤ j → j < H.numCols →
    H.slotAllotmentArray i j = 0 ∨ H.slotAllotmentArray i j = 1
  owner : ∀ j, 1 ≤ j → j < H.numCols → ∃! i, i < H.numRows ∧ H.slotAllotmentArray i j = 1

theorem Complete.accepts (hH : H.Complete) (node : UInt32) : H.Accepts node := by
  intro i hi _ j hj
  rw [List.mem_range] at hi
  rw [slotColumns, List.mem_range'_1] at hj
  obtain ⟨hle, hlt⟩ := hj
  have hcol : j < H.numCols := by omega
  refine ⟨hH.entries i hi j hle hcol, fun k hk hne hboth => hne ?_⟩
  exact (hH.owner j hle hcol).unique ⟨hk, hboth.1⟩ ⟨hi, hboth.2⟩

end

end TdmaHelper

end SAeroRP
