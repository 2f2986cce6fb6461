import Mathlib.Data.Set.Basic
import SAeroRP.Library.Shares
import SAeroRP.Tdma.Helper
import SAeroRP.Tdma.SlotFileParser

/-! The slot tables the helper makes. Given the numbers of nodes and of slots it gives every
node a block of slots that follow each other, and what is left to the first nodes; given a slot
file it copies what the parser has read. A write outside of the table that was allocated, or a
read outside of a row of the file, has no result. -/

namespace SAeroRP

open Library

namespace TdmaHelper

/-- A write to m_slotAllotmentArray. -/
def setEntry (i j : ℕ) (v : UInt32) (H : TdmaHelper) : Except Fault TdmaHelper :=
  if i < H.numRows ∧ j < H.numCols then
    .ok { H with slotAllotmentArray := fun a b =>
      if a = i ∧ b = j then v else H.slotAllotmentArray a b }
  else .error .bufferOverflow

/-- Allocate2D, from the loops that write on. -/
def allocate2D (H : TdmaHelper) : Except Fault TdmaHelper :=
  (List.range H.numRows).foldlM (fun H i => do
    let H ← H.setEntry i 0 (UInt32.ofNat i)
    (List.range (H.numCols - 1)).foldlM (fun H j => H.setEntry i (j + 1) 0) H) H

/-- The while loop of SetDefaultSlots for the node of row `i`, which ends when `tmp` is no
less than `continuousSlots` or where it breaks. -/
def fillBlock (i : ℕ) (continuousSlots : Int32) :
    ℕ → Int32 → TdmaHelper → Except Fault TdmaHelper
  | 0, _, H => .ok H
  | rounds + 1, tmp, H =>
    let tmp := tmp + 1
    let column := continuousSlots.toUInt32 * UInt32.ofNat i + tmp.toUInt32
    if column > UInt32.ofNat H.numCols then .ok H
    else do
      let H ← H.setEntry i column.toNat 1
      fillBlock i continuousSlots rounds tmp H

def setDefaultSlots (H : TdmaHelper) : Except Fault TdmaHelper := do
  let numRows := UInt32.ofNat H.numRows
  let numCols := UInt32.ofNat H.numCols
  let continuousSlots := ((numCols - 1) / numRows).toInt32
  let H ← (List.range H.numRows).foldlM (fun H i =>
    -- tmp counts from 0 up to continuousSlots
    fillBlock i continuousSlots continuousSlots.toInt.toNat 0 H) H
  let remainingSlots := numCols - 1 - continuousSlots.toUInt32 * numRows
  (List.range remainingSlots.toNat).foldlM (fun H i =>
    H.setEntry i (continuousSlots.toUInt32 * numRows + UInt32.ofNat i + 1).toNat 1) H

/-- The constructors with the numbers of nodes and slots; `memory` is what the allocated
rows hold before they are written. -/
def create (memory : ℕ → ℕ → UInt32) (numNodes numSlots : UInt32) : Except Fault TdmaHelper := do
  let H : TdmaHelper :=
    { slotAllotmentArray := memory, numRows := numNodes.toNat, numCols := (numSlots + 1).toNat }
  let H ← H.allocate2D
  H.setDefaultSlots

/-- `slotArrays[i][j]`. -/
def slotAt (slotArrays : List (List UInt32)) (i j : ℕ) : Except Fault UInt32 :=
  match slotArrays[i]?.bind (·[j]?) with
  | some v => .ok v
  | none => .error .outOfRange

/-- SetSlots with what the parser has read. -/
def setSlots (slotArrays : List (List UInt32)) (H : TdmaHelper) : Except Fault TdmaHelper :=
  (List.range H.numRows).foldlM (fun H' i => do
    let id ← slotAt slotArrays i 0
    let H' ← H'.setEntry i 0 id
    (List.range (H.numCols - 1)).foldlM (fun H' j => do
      let v ← slotAt slotArrays i (j + 1)
      H'.setEntry i (j + 1) v) H') H

/-- The constructor with a file name. -/
def createFromFile (memory : ℕ → ℕ → UInt32) (file : Option (List Char)) :
    Except Fault TdmaHelper := do
  let parser ← TdmaSlotAssignmentFileParser.parseTdmaSlotInformation file
  let H : TdmaHelper :=
    { slotAllotmentArray := memory, numRows := parser.getNodeCount.toNat
      numCols := (parser.getTotalSlots + 1).toNat }
  let H ← H.allocate2D
  H.setSlots parser.getSlotArrays

/-- The next of the arguments of a call; there is no value behind the last one. -/
def vaArg : List Int32 → Except Fault (Int32 × List Int32)
  | [] => .error .outOfRange
  | v :: args => .ok (v, args)

/-- Writes the next argument to the table. -/
def setArg (i j : ℕ) (s : TdmaHelper × List Int32) : Except Fault (TdmaHelper × List Int32) := do
  let (v, args) ← vaArg s.2
  let H' ← s.1.setEntry i j v.toUInt32
  return (H', args)

/-- SetSlots with a number of nodes, which it does not use, and the entries of the table. -/
def setSlotsArgs (_numNodes : Int32) (args : List Int32) (H : TdmaHelper) :
    Except Fault TdmaHelper := do
  let s ← (List.range H.numRows).foldlM (fun s i => do
    let s ← setArg i 0 s
    (List.range (H.numCols - 1)).foldlM (fun s j => setArg i (j + 1) s) s) (H, args)
  return s.1

/-! ### Filled tables -/

open Classical in
/-- The table with the same value in all cells of a set. -/
noncomputable def fill (s : Set (ℕ × ℕ)) (v : UInt32) (H : TdmaHelper) : TdmaHelper :=
  { H with slotAllotmentArray := fun a b => if (a, b) ∈ s then v else H.slotAllotmentArray a b }

section
variable {H : TdmaHelper} {s t : Set (ℕ × ℕ)} {v : UInt32} {i j : ℕ}

@[simp] theorem numRows_fill : (H.fill s v).numRows = H.numRows := rfl
@[simp] theorem numCols_fill : (H.fill s v).numCols = H.numCols := rfl

theorem entry_fill_of_mem (h : (i, j) ∈ s) : (H.fill s v).slotAllotmentArray i j = v := if_pos h

theorem entry_fill_of_notMem (h : (i, j) ∉ s) :
    (H.fill s v).slotAllotmentArray i j = H.slotAllotmentArray i j := if_neg h

theorem fill_empty : H.fill ∅ v = H := by
  simp [fill]

/-- Filling one set after another. -/
theorem fill_fill : (H.fill s v).fill t v = H.fill (s ∪ t) v := by
  unfold fill
  congr 1
  funext a b
  by_cases hs : (a, b) ∈ s <;> by_cases ht : (a, b) ∈ t <;> simp [hs, ht]

theorem setEntry_eq (hi : i < H.numRows) (hj : j < H.numCols) :
    H.setEntry i j v = .ok (H.fill {(i, j)} v) := by
  rw [setEntry, if_pos ⟨hi, hj⟩]
  simp [fill]

/-- A loop each of whose rounds fills a set fills their union. -/
theorem foldlM_fill (f : TdmaHelper → ℕ → Except Fault TdmaHelper) (cells : ℕ → Set (ℕ × ℕ))
    {n : ℕ} (h : ∀ k < n, ∀ s, f (H.fill s v) k = .ok ((H.fill s v).fill (cells k) v)) :
    (List.range n).foldlM f H = .ok (H.fill {c | ∃ k < n, c ∈ cells k} v) := by
  have hloop := foldlM_range f (fun m => H.fill {c | ∃ k < m, c ∈ cells k} v) fun k hk => by
    rw [h k hk, fill_fill]
    congr 2
    ext c
    simp only [Set.mem_union, Set.mem_ofPred_eq, Nat.lt_succ_iff_lt_or_eq, or_and_right, exists_or,
      exists_eq_left]
  have hnone : {c : ℕ × ℕ | ∃ k < 0, c ∈ cells k} = ∅ := by simp
  rwa [hnone, fill_empty] at hloop

/-! ### The loops -/

/-- The table with ids in its first column and no slots. -/
def allocated (H : TdmaHelper) : TdmaHelper :=
  { H with slotAllotmentArray := fun a b =>
      if a < H.numRows ∧ b < H.numCols then (if b = 0 then UInt32.ofNat a else 0)
      else H.slotAllotmentArray a b }

theorem allocate2D_eq (hcols : 0 < H.numCols) : H.allocate2D = .ok H.allocated := by
  -- before round k the rows before row k are written
  let before : ℕ → TdmaHelper := fun k =>
    { H with slotAllotmentArray := fun a b =>
        if a < k ∧ b < H.numCols then (if b = 0 then UInt32.ofNat a else 0)
        else H.slotAllotmentArray a b }
  have hrow : ∀ k < H.numRows, ((before k).setEntry k 0 (UInt32.ofNat k) >>= fun H =>
      (List.range (H.numCols - 1)).foldlM (fun H j => H.setEntry k (j + 1) 0) H) =
        .ok (before (k + 1)) := by
    intro k hk
    rw [setEntry_eq (H := before k) hk hcols, ok_bind,
      foldlM_fill (v := 0) _ (fun j => {(k, j + 1)}) fun j hj s => ?_]
    · congr 1
      unfold before fill
      congr 1
      funext a b
      by_cases hak : a = k
      · subst hak
        rcases b with _ | b
        · simp [hcols]
        · by_cases hb : b + 1 < H.numCols
          · simp [hb, Nat.lt_sub_of_add_lt hb]
          · simp [hb, show ¬ b < H.numCols - 1 by omega]
      · -- the row is another
        have hnext : a < k + 1 ∧ b < H.numCols ↔ a < k ∧ b < H.numCols := by omega
        rw [if_congr hnext rfl rfl]
        simp [hak]
    · have hj : j < H.numCols - 1 := hj
      have hcol : j + 1 < H.numCols := by omega
      exact setEntry_eq (H := ((before k).fill {(k, 0)} _).fill s 0) hk hcol
  have hloop := foldlM_range (fun H i => H.setEntry i 0 (UInt32.ofNat i) >>= fun H =>
    (List.range (H.numCols - 1)).foldlM (fun H j => H.setEntry i (j + 1) 0) H) before hrow
  have hstart : before 0 = H := by simp [before]
  rw [hstart] at hloop
  exact hloop

/-- The cells of a block, from the round in which `tmp` is `t` on. -/
def block (q i t rounds : ℕ) : Set (ℕ × ℕ) :=
  {c | c.1 = i ∧ q * i + t < c.2 ∧ c.2 ≤ q * i + t + rounds}

theorem fillBlock_eq {q t rounds : ℕ} (hi : i < H.numRows) (hq : q * i + t + rounds < H.numCols)
    (hcols : H.numCols < 4294967296) :
    fillBlock i (Int32.ofNat q) rounds (Int32.ofNat t) H = .ok (H.fill (block q i t rounds) 1) := by
  induction rounds generalizing t H with
  | zero =>
    have hnone : block q i t 0 = ∅ := by
      refine Set.eq_empty_of_forall_notMem fun c hc => ?_
      obtain ⟨-, hlt, hle⟩ := hc
      omega
    rw [hnone, fill_empty]
    rfl
  | succ rounds ih =>
    have htmp : Int32.ofNat t + 1 = Int32.ofNat (t + 1) := (Int32.ofNat_add t 1).symm
    have hcolumn : (Int32.ofNat q).toUInt32 * UInt32.ofNat i + (Int32.ofNat t + 1).toUInt32 =
        UInt32.ofNat (q * i + (t + 1)) := by
      rw [htmp, Int32.toUInt32_ofNat', Int32.toUInt32_ofNat', UInt32.ofNat_add (q * i),
        UInt32.ofNat_mul]
    have hnat : (UInt32.ofNat (q * i + (t + 1))).toNat = q * i + (t + 1) :=
      UInt32.toNat_ofNat_of_lt' (by simp only [UInt32.size]; omega)
    have hfits : ¬ UInt32.ofNat (q * i + (t + 1)) > UInt32.ofNat H.numCols := by
      rw [gt_iff_lt, UInt32.lt_iff_toNat_lt, hnat, UInt32.toNat_ofNat_of_lt' hcols]
      omega
    rw [fillBlock]
    rw [hcolumn, if_neg hfits, hnat, setEntry_eq hi (by omega), ok_bind, htmp,
      ih (H := H.fill _ 1) hi (by rw [numCols_fill]; omega) hcols, fill_fill]
    congr 2
    ext ⟨a, b⟩
    simp only [block, Set.mem_union, Set.mem_singleton_iff, Set.mem_ofPred_eq, Prod.mk.injEq]
    omega

/-- The cells of the shares of all nodes. -/
def shares (H : TdmaHelper) : Set (ℕ × ℕ) :=
  {c | c.1 < H.numRows ∧ Share H.numRows (H.numCols - 1) c.1 c.2}

theorem fillBlocks_eq {q : ℕ} (hq : q * H.numRows < H.numCols) (hcols : H.numCols < 4294967296) :
    (List.range H.numRows).foldlM (fun H i => fillBlock i (Int32.ofNat q) q 0 H) H =
      .ok (H.fill {c | ∃ i < H.numRows, c ∈ block q i 0 q} 1) := by
  refine foldlM_fill _ (fun i => block q i 0 q) fun i hi s => ?_
  have hblock : q * i + q ≤ q * H.numRows := block_le hi q
  have hfits : q * i + 0 + q < H.numCols := by omega
  exact fillBlock_eq (H := H.fill s 1) hi hfits hcols

theorem fillLeft_eq {q r : ℕ} (hr : r ≤ H.numRows) (hq : q * H.numRows + r < H.numCols)
    (hcols : H.numCols < 4294967296) :
    (List.range r).foldlM (fun H' i => H'.setEntry i
        (UInt32.ofNat q * UInt32.ofNat H.numRows + UInt32.ofNat i + 1).toNat 1) H =
      .ok (H.fill {c | c.1 < r ∧ c.2 = q * H.numRows + c.1 + 1} 1) := by
  have hcells : {c : ℕ × ℕ | c.1 < r ∧ c.2 = q * H.numRows + c.1 + 1} =
      {c | ∃ i < r, c ∈ ({(i, q * H.numRows + i + 1)} : Set (ℕ × ℕ))} := by
    ext ⟨a, b⟩
    simp
  rw [hcells]
  refine foldlM_fill _ (fun i => {(i, q * H.numRows + i + 1)}) fun i hi s => ?_
  have hone : (1 : UInt32) = UInt32.ofNat 1 := rfl
  have hcolumn : (UInt32.ofNat q * UInt32.ofNat H.numRows + UInt32.ofNat i + 1).toNat =
      q * H.numRows + i + 1 := by
    rw [hone, ← UInt32.ofNat_mul, ← UInt32.ofNat_add, ← UInt32.ofNat_add,
      UInt32.toNat_ofNat_of_lt' (by simp only [UInt32.size]; omega)]
  have hfits : q * H.numRows + i + 1 < H.numCols := by omega
  rw [hcolumn]
  exact setEntry_eq (H := H.fill s 1) (hi.trans_le hr) hfits

/-- SetDefaultSlots gives every node its share of the slots and writes nothing else. -/
theorem setDefaultSlots_eq (hrows : 0 < H.numRows) (hrows' : H.numRows < 4294967296)
    (hcols : 0 < H.numCols) (hcols' : H.numCols ≤ 2147483648) :
    H.setDefaultSlots = .ok (H.fill H.shares 1) := by
  set n := H.numCols - 1 with hn
  set q := n / H.numRows with hq
  have hsum : q * H.numRows + n % H.numRows = n := Nat.div_add_mod' n H.numRows
  have hmod : n % H.numRows < H.numRows := Nat.mod_lt n hrows
  have hslots : UInt32.ofNat H.numCols - 1 = UInt32.ofNat n := (UInt32.ofNat_sub hcols).symm
  have hcontinuous : (UInt32.ofNat n / UInt32.ofNat H.numRows).toInt32 = Int32.ofNat q := by
    rw [← UInt32.ofNat_div (by omega) hrows', UInt32.toInt32_ofNat']
  have hrounds : (Int32.ofNat q).toInt.toNat = q := by
    have hle : q ≤ n := Nat.div_le_self n H.numRows
    rw [Int32.toInt_ofNat_of_lt (by omega), Int.toNat_natCast]
  have hremaining : (UInt32.ofNat n - UInt32.ofNat q * UInt32.ofNat H.numRows).toNat =
      n % H.numRows := by
    rw [← UInt32.ofNat_mul, ← UInt32.ofNat_sub (by omega),
      UInt32.toNat_ofNat_of_lt' (by simp only [UInt32.size]; omega)]
    omega
  have hleft := fillLeft_eq (H := H.fill {c | ∃ i < H.numRows, c ∈ block q i 0 q} 1) (q := q)
    (r := n % H.numRows) hmod.le (by simp only [numRows_fill, numCols_fill]; omega)
    (by rw [numCols_fill]; omega)
  rw [numRows_fill] at hleft
  unfold setDefaultSlots
  dsimp only
  rw [hslots, hcontinuous, hrounds, Int32.toUInt32_ofNat', hremaining,
    fillBlocks_eq (by omega) (by omega), ok_bind, hleft, fill_fill]
  congr 2
  ext ⟨a, b⟩
  simp only [Set.mem_union, Set.mem_ofPred_eq, shares, Share, block]
  constructor
  · rintro (⟨i, hi, rfl, hlt, hle⟩ | ⟨hlt, heq⟩)
    · exact ⟨hi, .inl ⟨hlt, hle⟩⟩
    · exact ⟨hlt.trans hmod, .inr ⟨hlt, heq⟩⟩
  · rintro ⟨ha, ⟨hlt, hle⟩ | ⟨hlt, heq⟩⟩
    · exact .inl ⟨a, ha, rfl, hlt, hle⟩
    · exact .inr ⟨hlt, heq⟩

end

end TdmaHelper

end SAeroRP
