import PlaneSketch.Transform.Basic

/-!
# Viewports

The drawing area is the square from `(-1, -1)` at the bottom left to `(1, 1)` at the top right. A viewport
maps it to pixels, which are counted from the top left; a padding moves it away from the borders.
-/

namespace PlaneSketch.Transform

variable {K : Type} [Zero K] [One K] [Add K] [Mul K] [Neg K] [Div K] [OfNat K 2] [BEq K] [SelfEqualUnits K]
  [Reported K]

/-- The map of the drawing area to an area of `width` by `height` pixels. -/
def viewport (width height : K) : Except Fault (Transform K) :=
  compose (scaling (width / 2) (-(height / 2))) (translation (width / 2) (height / 2))

/-- The map of the drawing area to the pixels inside a padding. -/
def paddedViewport (width height padding : K) : Except Fault (Transform K) := do
  compose (← viewport width height) (translation padding padding)

end PlaneSketch.Transform
