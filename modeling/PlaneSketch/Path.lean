import PlaneSketch.Color.Spec
import PlaneSketch.Nesting
import PlaneSketch.Rectangle

/-!
# Paths

A path is a polyline with the transform and the colour it is drawn with. Its points are mapped by its own
transform and then, if there is one, by a further transform; the two are composed before they are applied. A
path may be left without a transform. It can be made and passed on, but its points cannot be mapped.
-/

namespace PlaneSketch

structure Path (K : Type) [Zero K] [One K] [BEq K] where
  points : List (Point K)
  transform : Option (Transform K)
  color : ColorSpec

namespace Path

variable {K : Type} [Zero K] [One K] [BEq K]

def ofRectangle (r : Rectangle K) (transform : Transform K) (color : ColorSpec) : Path K :=
  ⟨r.outline, some transform, color⟩

def withTransform (p : Path K) (t : Transform K) : Path K := { p with transform := some t }

/-- The path's transform, which is needed for a given use. -/
def transformFor (p : Path K) (use : TransformUse) : Except Fault (Transform K) :=
  match p.transform with
  | some t => .ok t
  | none => .error (.missingTransform use)

/-- The points mapped by the path's transform and then by `further`, if it is given. -/
def transformedPoints [Add K] [Mul K] [Reported K] (p : Path K) (further : Option (Transform K)) :
    Except Fault (List (Point K)) := do
  match further with
  | none => .ok ((← p.transformFor .applying).applyAll p.points)
  | some t => .ok ((← Transform.compose (← p.transformFor .composing) t).applyAll p.points)

/-! ### Paths from nested lists -/

/-- The points of a list of pairs, in order; the first fault is reported. -/
def pointsOf : List Nesting → Except Fault (List (Point Binary64))
  | [] => .ok []
  | n :: ns => do
    let p ← n.point
    .ok (p :: (← pointsOf ns))

def ofPoints (points : Nesting) (transform : Option (Transform Binary64)) (color : ColorSpec) :
    Except Fault (Path Binary64) :=
  match points with
  | .number _ => .error .notAPoint
  | .list items => do .ok ⟨← pointsOf items, transform, color⟩

/-- The outline of the rectangle with two opposite corners; the coordinates of the other two corners are
taken before the corners themselves are read as points. -/
def ofCorners (first second : Nesting) (transform : Transform Binary64) (color : ColorSpec) :
    Except Fault (Path Binary64) := do
  let x1 ← first.element 0
  let y2 ← second.element 1
  let x2 ← second.element 0
  let y1 ← first.element 1
  .ok ⟨← pointsOf [first, .list [x1, y2], second, .list [x2, y1], first], some transform, color⟩

end Path

end PlaneSketch
