import PlaneSketch.Canvas.Area
import PlaneSketch.Paint

/-!
# Drawings

A drawing is a surface of a given size together with the calls that were made on it: clearing it to a
colour, and stroking polylines whose points are pixel coordinates in single precision. A pixel has the
colour of the last stroke over its centre, or else the colour the surface was last cleared to. A stroke whose
outline is out of range, or whose paint is transparent, leaves nothing, and so does a step too short to have
a direction.
-/

namespace PlaneSketch

inductive Call where
  | clear (color : Color)
  | polyline (points : List (Point Binary64)) (paint : Paint)
  deriving DecidableEq

structure Drawing where
  size : Size
  calls : List Call
  deriving DecidableEq

namespace Point

def toSingle (p : Point Binary64) : Point Binary64 := ⟨p.x.toSingle, p.y.toSingle⟩

/-- Whether a point lies within half the width of the segment from `p` to `q`, and between its ends. -/
def onSegment (width : Binary64) (p q centre : Point Binary64) : Bool :=
  let dx := q.x - p.x
  let dy := q.y - p.y
  let x := centre.x - p.x
  let y := centre.y - p.y
  let square := dx * dx + dy * dy
  let along := x * dx + y * dy
  let across := x * dy - y * dx
  decide (0 ≤ along) && decide (along ≤ square) && decide (4 * (across * across) ≤ width * width * square)

/-- The greatest difference of both coordinates between points that are not told apart. -/
def resolution : Binary64 := .ofFraction 1 4096

def isNear (p q : Point Binary64) : Bool :=
  decide ((q.x - p.x).abs ≤ resolution) && decide ((q.y - p.y).abs ≤ resolution)

/-- The segments of a polyline from `p` on; a point that is not told apart from the last one is passed over. -/
def segmentsFrom (p : Point Binary64) : List (Point Binary64) → List (Point Binary64 × Point Binary64)
  | [] => []
  | q :: qs => if isNear p q then segmentsFrom p qs else (p, q) :: segmentsFrom q qs

def segments : List (Point Binary64) → List (Point Binary64 × Point Binary64)
  | [] => []
  | p :: ps => segmentsFrom p ps

/-- The greatest coordinate of an outline, a quarter of the greatest single precision number. -/
def outlineLimit : Binary64 := .ofNat (Nat.pow 2 126 - Nat.pow 2 102)

/-- Whether everything up to `reach` away from a point stays within the range of outlines. -/
def isWithinReach (reach : Binary64) (p : Point Binary64) : Bool :=
  decide (p.x.abs + reach ≤ outlineLimit) && decide (p.y.abs + reach ≤ outlineLimit)

end Point

/-- Whether a stroke through the given points leaves its colour on a point. -/
def Paint.covers (paint : Paint) (points : List (Point Binary64)) (centre : Point Binary64) : Bool :=
  !paint.color.isTransparent && points.all (Point.isWithinReach (paint.width * .ofFraction 1 2)) &&
    (Point.segments points).any fun s => Point.onSegment paint.width s.1 s.2 centre

namespace Drawing

/-- The colour at a point after calls, where `color` was there before. -/
def colorAfter (color : Color) (centre : Point Binary64) : List Call → Color
  | [] => color
  | .clear c :: calls => colorAfter c centre calls
  | .polyline points paint :: calls =>
    colorAfter (if paint.covers points centre then paint.color else color) centre calls

def pixel (d : Drawing) (column row : Nat) : List Nat :=
  let half := Binary64.ofFraction 1 2
  (colorAfter ⟨0, 0, 0, 0⟩ ⟨.ofNat column + half, .ofNat row + half⟩ d.calls).bytes

/-- The place that an index names among `size` places; an index below zero counts from their end. -/
def place (axis size : Nat) (index : Int) : Except Fault Nat :=
  let i := if index < 0 then index + size else index
  if 0 ≤ i ∧ i < size then .ok i.toNat else .error (.outsideAxis index axis size)

/-- The bytes of the pixel that two indices name; the row is axis 0 and is looked up first. -/
def pixelAt (d : Drawing) (column row : Int) : Except Fault (List Nat) := do
  let y ← place 0 d.size.height row
  let x ← place 1 d.size.width column
  .ok (d.pixel x y)

end Drawing

end PlaneSketch
