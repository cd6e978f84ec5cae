import PlaneSketch.Color.Spec

/-!
# Canvas parameters

The padding around the drawing area, the width of strokes, the colours of background and axes, and whether
the axes are drawn. A padding below zero and a width at or below zero are refused.
-/

namespace PlaneSketch

structure Parameters where
  padding : Number := .int 100
  background : ColorSpec := .white
  showAxes : Bool := true
  lineWidth : Number := .real 1
  axesColor : ColorSpec := .black

namespace Parameters

/-- The parameters themselves, unless the padding or the width is refused. -/
def checked (p : Parameters) : Except Fault Parameters :=
  if p.padding.isBelowZero then .error (.negativePadding p.padding)
  else if p.lineWidth.isAtMostZero then .error (.lineWidthNotPositive p.lineWidth)
  else .ok p

end Parameters

end PlaneSketch
