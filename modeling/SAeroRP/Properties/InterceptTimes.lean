import SAeroRP.Tables.TimeToIntercept

/-! Which times to intercept are ordinary numbers. The quotient by the relative speed is
guarded by a sign alone, so a relative speed of 0 is divided by: that of a node at rest, or
of one so slow that its speed underflows. -/

namespace SAeroRP

open Library

namespace MathLibrary

section
variable (lib : MathLibrary) (dstPosition nodePosition nodeVelocity : DoubleVector) (range : Float)

/-- The time to intercept is an ordinary number, and is found without a division by 0. -/
structure DefinesTime : Prop where
  divisor : ¬ (lib.calculateRelativeSpeed dstPosition nodeVelocity nodePosition < 0 ∧
      calculateRelativeDistance dstPosition nodePosition ≥ range) →
    (lib.calculateRelativeSpeed dstPosition nodeVelocity nodePosition == 0) = false
  ordinary : (lib.calculateTimeToIntercept dstPosition nodePosition nodeVelocity range).isFinite =
    true

/-- The node moves away outside the range, or its distance from the range is an ordinary number
and its relative speed is infinite, or ordinary, not 0 and not too small for the quotient. -/
def HasTime : Prop :=
  let dd := calculateRelativeDistance dstPosition nodePosition
  let dv := lib.calculateRelativeSpeed dstPosition nodeVelocity nodePosition
  dv < 0 ∧ dd ≥ range ∨ (dd - range).isFinite = true ∧
    (dv.isInf = true ∨ dv.isFinite = true ∧ (dv == 0) = false ∧ ((dd - range) / dv).isInf = false)

variable {lib} {dstPosition nodePosition nodeVelocity} {range}

/-- Neither the answer 0 nor a change of the sign is out of the ordinary. -/
theorem isFinite_calculateTimeToIntercept :
    (lib.calculateTimeToIntercept dstPosition nodePosition nodeVelocity range).isFinite = true ↔
      lib.HasTime dstPosition nodePosition nodeVelocity range := by
  unfold calculateTimeToIntercept HasTime
  dsimp only
  rw [← Double.isFinite_div_iff]
  generalize calculateRelativeDistance dstPosition nodePosition = dd
  generalize lib.calculateRelativeSpeed dstPosition nodeVelocity nodePosition = dv
  by_cases haway : dv < 0 ∧ dd ≥ range
  · rw [if_pos haway]
    exact iff_of_true (by decide) (.inl haway)
  · rw [if_neg haway, or_iff_right haway]
    split_ifs
    · rw [Double.isFinite_neg_one_mul]
    · rfl

/-- Where the time is an ordinary number no division is by 0. -/
theorem definesTime_iff : lib.DefinesTime dstPosition nodePosition nodeVelocity range ↔
    lib.HasTime dstPosition nodePosition nodeVelocity range := by
  refine ⟨fun h => isFinite_calculateTimeToIntercept.mp h.ordinary,
    fun h => ⟨fun haway => ?_, isFinite_calculateTimeToIntercept.mpr h⟩⟩
  obtain ⟨-, hinf | ⟨-, hne, -⟩⟩ := h.resolve_left haway
  · exact Double.beq_zero_of_isInf hinf
  · exact hne

end

end MathLibrary

namespace NeighborTable

variable (lib : MathLibrary) (now : Time) (t : NeighborTable)

/-- The times BestNeighbor computes: the node's own, and that of every neighbour that a
purge leaves. -/
def timesToIntercept (dstPosition nodePosition nodeVelocity : DoubleVector) : List Float :=
  lib.calculateTimeToIntercept dstPosition nodePosition nodeVelocity (doubleOf t.range) ::
    (t.purge now).table.toList.map fun e => lib.calculateTimeToIntercept dstPosition
      e.2.1.position.toDoubles e.2.1.velocity.toDoubles (doubleOf t.range)

/-- They are those of the neighbours BestNeighbor chooses among. -/
theorem timesToIntercept_toDoubles (dstPosition nodePosition nodeVelocity : Vector3D) :
    t.timesToIntercept lib now dstPosition.toDoubles nodePosition.toDoubles nodeVelocity.toDoubles =
      lib.timeToIntercept dstPosition nodePosition nodeVelocity t.range ::
        ((t.purge now).candidates lib.timeToIntercept dstPosition).map Prod.snd := by
  rw [timesToIntercept, candidates, List.map_map]
  rfl

/-- The time to intercept is defined exactly for a node that has one, whatever the range is,
and all times BestNeighbor computes are ordinary numbers if the node and every neighbour have
one. -/
theorem times_defined_iff (dst pos vel : DoubleVector) (range : Float)
    (dstPosition nodePosition nodeVelocity : DoubleVector) :
    (lib.DefinesTime dst pos vel range ↔ lib.HasTime dst pos vel range) ∧
      ((∀ time ∈ t.timesToIntercept lib now dstPosition nodePosition nodeVelocity,
          time.isFinite = true) ↔
        lib.HasTime dstPosition nodePosition nodeVelocity (doubleOf t.range) ∧
          ∀ (a : Ipv4Address) (e : NeighborTableEntry × Time),
            (t.purge now).table[a]? = some e → lib.HasTime dstPosition e.1.position.toDoubles
              e.1.velocity.toDoubles (doubleOf t.range)) := by
  refine ⟨MathLibrary.definesTime_iff, ?_⟩
  rw [timesToIntercept, List.forall_mem_cons]
  refine and_congr MathLibrary.isFinite_calculateTimeToIntercept ?_
  rw [List.forall_mem_map]
  constructor
  · intro h a e he
    exact MathLibrary.isFinite_calculateTimeToIntercept.mp
      (h (a, e) (Std.ExtTreeMap.mem_toList_iff_getElem?_eq_some.mpr he))
  · rintro h ⟨a, e⟩ he
    exact MathLibrary.isFinite_calculateTimeToIntercept.mpr
      (h a e (Std.ExtTreeMap.mem_toList_iff_getElem?_eq_some.mp he))

/-- The mathematical library at the angle 0. -/
def level : MathLibrary := ⟨fun _ => 1, fun _ _ => 0⟩

/-- A ground station stands still, 30 km from the destination. -/
theorem standing_still_not_defined :
    ¬ level.DefinesTime ⟨30000, 0, 0⟩ ⟨0, 0, 0⟩ ⟨0, 0, 0⟩ 27800 := by
  intro h
  exact absurd h.ordinary (by decide +kernel)

end NeighborTable

end SAeroRP
