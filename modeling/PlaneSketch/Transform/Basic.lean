import PlaneSketch.Matrix
import PlaneSketch.Fault

/-!
# Affine transforms of the plane

A transform is a matrix whose last row has the value `(0, 0, 1)`; it maps a point `(x, y)` to
`(a * x + c * y + e, b * x + d * y + f)`. Composing multiplies the matrices in full and then checks the last
row, so where arithmetic overflows a composition can fail. Over the elements of a ring it never does.
-/

namespace PlaneSketch

/-- Zero and one are equal to themselves in value. -/
class SelfEqualUnits (K : Type) [Zero K] [One K] [BEq K] : Prop where
  zero_beq_zero : ((0 : K) == 0) = true
  one_beq_one : ((1 : K) == 1) = true

/-- Entries that a message can show, as doubles. -/
class Reported (K : Type) where
  reported : K → Binary64

structure Point (K : Type) where
  x : K
  y : K
  deriving DecidableEq

/-- An affine transform: a matrix whose last row has the value `(0, 0, 1)`. -/
structure Transform (K : Type) [Zero K] [One K] [BEq K] where
  matrix : Matrix K
  bottom_same : matrix.bottom.same Triple.unit = true

namespace Transform

variable {K : Type} [Zero K] [One K] [BEq K]

instance [DecidableEq K] : DecidableEq (Transform K) := fun s t =>
  decidable_of_iff (s.matrix = t.matrix) ⟨fun h => by cases s; cases t; cases h; rfl, fun h => by rw [h]⟩

section Coefficients

variable (t : Transform K)

def a : K := t.matrix.top.x
def b : K := t.matrix.middle.x
def c : K := t.matrix.top.y
def d : K := t.matrix.middle.y
def e : K := t.matrix.top.z
def f : K := t.matrix.middle.z

def coefficients : List K := [t.a, t.b, t.c, t.d, t.e, t.f]

end Coefficients

/-- The transform with a given matrix; its last row is checked. -/
def ofMatrix [Reported K] (m : Matrix K) : Except Fault (Transform K) :=
  if h : m.bottom.same Triple.unit = true then .ok ⟨m, h⟩ else .error (.lastRow (m.bottom.map Reported.reported))

/-! ### Elementary transforms -/

section Elementary

variable [SelfEqualUnits K]

theorem unit_same_unit : (Triple.unit : Triple K).same Triple.unit = true := by
  simp [Triple.same, Triple.unit, SelfEqualUnits.zero_beq_zero, SelfEqualUnits.one_beq_one]

def ofCoefficients (a b c d e f : K) : Transform K := ⟨⟨⟨a, c, e⟩, ⟨b, d, f⟩, Triple.unit⟩, unit_same_unit⟩

def identity : Transform K := ofCoefficients 1 0 0 1 0 0

def translation (tx ty : K) : Transform K := ofCoefficients 1 0 0 1 tx ty

/-- The stretch by `sx` across and by `sy` upwards; one factor alone counts for both. -/
def scaling (sx : K) (sy : K := sx) : Transform K := ofCoefficients sx 0 0 sy 0 0

/-- The turn that takes the direction of the x-axis to the direction `(co, si)`. -/
def turn [Neg K] (co si : K) : Transform K := ofCoefficients co si (-si) co 0 0

end Elementary

/-! ### Composition and application -/

variable [Add K] [Mul K]

/-- The transform that applies `u` first and then `t`. -/
def after [Reported K] (t u : Transform K) : Except Fault (Transform K) := ofMatrix (t.matrix * u.matrix)

/-- The transform that applies `t` first and then `u`. -/
def andThen [Reported K] (t u : Transform K) : Except Fault (Transform K) := u.after t

def compose [Reported K] (first second : Transform K) : Except Fault (Transform K) := first.andThen second

/-- The image of a point: the matrix applied to the column `(x, y, 1)`. -/
def apply (t : Transform K) (p : Point K) : Point K :=
  let v := t.matrix.mulColumn ⟨p.x, p.y, 1⟩
  ⟨v.x, v.y⟩

/-- The images of points: the rows `(x, y, 1)` multiplied by the transposed matrix. -/
def applyAll (t : Transform K) (ps : List (Point K)) : List (Point K) :=
  ps.map fun p =>
    let v := Matrix.rowMul ⟨p.x, p.y, 1⟩ t.matrix.transpose
    ⟨v.x, v.y⟩

/-- Where factors commute, points are mapped one by one. -/
theorem applyAll_eq_map (hcomm : ∀ x y : K, x * y = y * x) (t : Transform K) (ps : List (Point K)) :
    t.applyAll ps = ps.map t.apply := by
  have hdot : ∀ u v : Triple K, u.dot v = v.dot u := fun u v => by
    rw [Triple.dot, Triple.dot, hcomm u.x, hcomm u.y, hcomm u.z]
  refine List.map_congr_left fun p _ => ?_
  exact congr (congrArg Point.mk (hdot _ _)) (hdot _ _)

section Chaining

variable [SelfEqualUnits K] [Reported K] (t : Transform K)

def translate (tx ty : K) : Except Fault (Transform K) := t.after (translation tx ty)

/-- The transform that scales first and then applies `t`; one factor alone counts for both directions. -/
def scale (sx : K) (sy : K := sx) : Except Fault (Transform K) := t.after (scaling sx sy)

def rotate [Neg K] (co si : K) : Except Fault (Transform K) := t.after (turn co si)

end Chaining

/-- Equality of all entries in value. -/
instance : BEq (Transform K) := ⟨fun t u => t.matrix.same u.matrix⟩

end Transform

end PlaneSketch
