import SAeroRP.Library.Double
import SAeroRP.Tables.NeighborTable

/-! The time until a node has a destination in its radio range, as the neighbour table
computes it in doubles. The cosine and the angle of a vector come from the mathematical
library, whose results the language does not settle to the last bit. -/

namespace SAeroRP

/-- The functions of the mathematical library. -/
structure MathLibrary where
  cos : Float → Float
  atan2 : Float → Float → Float

/-- A vector of the simulator. -/
structure DoubleVector where
  x : Float
  y : Float
  z : Float

namespace DoubleVector

/-- GetLength of the simulator. -/
def length (v : DoubleVector) : Float := Float.sqrt (v.x * v.x + v.y * v.y + v.z * v.z)

end DoubleVector

/-- The double of a component of a table's vectors. Those are whole numbers that fit. -/
def doubleOf (q : ℚ) : Float := Float.ofInt q.num / Float.ofNat q.den

def Vector3D.toDoubles (v : Vector3D) : DoubleVector := ⟨doubleOf v.x, doubleOf v.y, doubleOf v.z⟩

namespace MathLibrary

def PI : Float := 3.14159265

/-- CalculateDistance of the simulator. -/
def calculateRelativeDistance (dstPosition nodePosition : DoubleVector) : Float :=
  DoubleVector.length ⟨nodePosition.x - dstPosition.x, nodePosition.y - dstPosition.y,
    nodePosition.z - dstPosition.z⟩

variable (lib : MathLibrary)

def calculateRelativeSpeed (dstPosition nodeVelocity nodePosition : DoubleVector) : Float :=
  let vel := Float.sqrt (nodeVelocity.x * nodeVelocity.x + nodeVelocity.y * nodeVelocity.y +
    nodeVelocity.z * nodeVelocity.z)
  let theta := lib.atan2 nodeVelocity.y nodeVelocity.x * 180 / PI
  let thetadot :=
    lib.atan2 (dstPosition.y - nodePosition.y) (dstPosition.x - nodePosition.x) * 180 / PI
  vel * lib.cos (theta - thetadot)

def calculateTimeToIntercept (dstPosition nodePosition nodeVelocity : DoubleVector)
    (range : Float) : Float :=
  let dd := calculateRelativeDistance dstPosition nodePosition
  let dv := lib.calculateRelativeSpeed dstPosition nodeVelocity nodePosition
  if dv < 0 ∧ dd ≥ range then 0
  else
    let tti := (dd - range) / dv
    if dd < range - 3000 ∧ dv < 0 then -1 * tti else tti

/-- The valuation of the time to intercept that the neighbour table is used with. -/
def timeToIntercept : TimeToIntercept Float :=
  fun dstPosition nodePosition nodeVelocity range =>
    lib.calculateTimeToIntercept dstPosition.toDoubles nodePosition.toDoubles
      nodeVelocity.toDoubles (doubleOf range)

end MathLibrary

end SAeroRP
