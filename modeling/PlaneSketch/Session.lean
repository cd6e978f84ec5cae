import PlaneSketch.Path
import PlaneSketch.TransformText

/-!
# Sessions

A session takes pairs of a transformation text and a rectangle text. Each pair gives a view: the transform
in effect, the path to draw, and a status line. A rejected transformation text leaves the transform that
was in effect before; a rejected rectangle text leaves nothing to draw, but the transform is still taken.
-/

namespace PlaneSketch

/-- What is in effect after a pair of texts was taken. -/
structure View where
  transform : Transform Binary64
  paths : List (Path Binary64)
  status : String
  accepted : Bool

namespace View

def defaultTransformText : String := "R(0)*T(0,0)*S(1,1)"

def defaultRectangleText : String := "-0.25 -0.25 0.25 0.25"

def rejectedTransform : String := "invalid transformation string"

def rejectedRectangle : String := "invalid four values for rectangle"

/-- The view of a transform in effect, given whether its text was accepted, and a rectangle text. -/
def ofTransform (t : Transform Binary64) (accepted : Bool) (rectangleText : String) : View :=
  match Rectangle.read rectangleText with
  | .error _ => ⟨t, [], rejectedRectangle, false⟩
  | .ok r =>
    ⟨t, [Path.ofRectangle r t .black], if accepted then t.summary else rejectedTransform, accepted⟩

/-- The view of a pair of texts, `previous` being the transform in effect before. -/
def update (transformText rectangleText : String) (previous : Option (Transform Binary64)) :
    Except Fault View :=
  match TransformText.read transformText with
  | .error _ => .ok (ofTransform (previous.getD Transform.identity) false rectangleText)
  | .ok (.ok t) => .ok (ofTransform t true rectangleText)
  | .ok (.error fault) => .error fault

end View

/-- A pair of texts, and whether the transform in effect before is carried over. -/
structure Entry where
  transformText : String := View.defaultTransformText
  rectangleText : String := View.defaultRectangleText
  keep : Bool := true

namespace Session

/-- The outcomes of entries one after another. An entry that succeeds puts its transform in effect; one
that fails leaves the transform that was in effect. -/
def run (current : Option (Transform Binary64)) : List Entry → List (Except Fault View)
  | [] => []
  | entry :: rest =>
    let outcome := View.update entry.transformText entry.rectangleText (if entry.keep then current else none)
    let next := match outcome with
      | .ok view => some view.transform
      | .error _ => current
    outcome :: run next rest

end Session

end PlaneSketch
