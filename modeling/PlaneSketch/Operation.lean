import PlaneSketch.Transform.Double

/-!
# Operations

An operation scales, translates or turns the plane. A list of operations composes from its last element to
its first, so the last one acts on the points first, as in a product of maps applied to a point. An angle
is turned into a direction by a function that the exact reading may choose freely.
-/

namespace PlaneSketch

inductive Operation (K : Type) where
  | scale (sx sy : K)
  | translate (tx ty : K)
  | rotate (degrees : K)
  deriving DecidableEq

variable {K : Type} [Zero K] [One K] [Neg K] [BEq K] [SelfEqualUnits K]

/-- The transform of an operation, where `direction` gives the cosine and sine of an angle. -/
def Operation.toTransform (direction : K → K × K) : Operation K → Transform K
  | scale sx sy => Transform.scaling sx sy
  | translate tx ty => Transform.translation tx ty
  | rotate degrees => Transform.turn (direction degrees).1 (direction degrees).2

/-- The transform of a list of operations: the last one is applied first. -/
def composeOperations [Add K] [Mul K] [Reported K] (direction : K → K × K) (ops : List (Operation K)) :
    Except Fault (Transform K) :=
  ops.reverse.foldlM (fun t op => Transform.compose t (op.toTransform direction)) Transform.identity

/-- The first operation is put after the transform of all others. -/
theorem composeOperations_cons [Add K] [Mul K] [Reported K] (direction : K → K × K) (op : Operation K)
    (ops : List (Operation K)) :
    composeOperations direction (op :: ops) =
      composeOperations direction ops >>= fun t => (op.toTransform direction).after t := by
  simp only [composeOperations, List.foldlM_reverse, List.foldrM_cons]
  rfl

namespace Operation

def transform (op : Operation Binary64) : Transform Binary64 := op.toTransform Binary64.direction

def composed (ops : List (Operation Binary64)) : Except Fault (Transform Binary64) :=
  composeOperations Binary64.direction ops

end Operation

/-! ### Operations as maps -/

section Maps

variable {K : Type} [Add K] [Sub K] [Mul K]

/-- The image of a point under an operation, coordinate by coordinate. -/
def Operation.act (direction : K → K × K) (p : Point K) : Operation K → Point K
  | scale sx sy => ⟨sx * p.x, sy * p.y⟩
  | translate tx ty => ⟨p.x + tx, p.y + ty⟩
  | rotate degrees =>
    let (co, si) := direction degrees
    ⟨co * p.x - si * p.y, si * p.x + co * p.y⟩

/-- The image of a point under a list of operations, the last one applied first. -/
def actAll (direction : K → K × K) (ops : List (Operation K)) (p : Point K) : Point K :=
  ops.foldr (fun op q => op.act direction q) p

end Maps

end PlaneSketch
