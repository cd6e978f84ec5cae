import PlaneSketch.Number.Checked
import PlaneSketch.Path
import PlaneSketch.Transform.Double
import PlaneSketch.Transform.Viewport

/-!
# Drawing areas

A drawing area has a width, a height and a padding. They fix the size of the surface, which is the least
whole number of pixels that holds the area with its padding, and the map of the area to pixels. Lengths may
be given in one type and coordinates computed in another; `Measure` says how the two meet.
-/

namespace PlaneSketch

/-- Lengths of type `N` that become coordinates of type `K`. -/
class Measure (N : Type) (K : outParam Type) where
  twice : N → N
  plus : N → N → Except Fault N
  ceiling : N → Except Fault Int
  coordinate : N → Except Fault K

instance : Measure Number Binary64 := ⟨Number.double, Number.add, Number.ceiling, Number.toBinary64⟩

structure Size where
  width : Nat
  height : Nat
  deriving DecidableEq

/-- The library that makes surfaces: whether it makes one of a given size, or the fault with which it refuses. Sides are
handed to it as machine integers of 32 bits with a sign, so it makes none with a longer side. -/
structure SurfaceMaker where
  make : Size → Except Fault Unit
  side_lt : ∀ size, make size = .ok () → size.width < Nat.pow 2 31 ∧ size.height < Nat.pow 2 31

/-- The library that makes all surfaces whose sides can be handed to it. -/
def SurfaceMaker.wordSized : SurfaceMaker where
  make size :=
    if size.width < Nat.pow 2 31 ∧ size.height < Nat.pow 2 31 then .ok ()
    else .error (.noSurface size.width size.height)
  side_lt size h := by
    split at h
    · assumption
    · cases h

structure Area (K : Type) [Zero K] [One K] [BEq K] where
  size : Size
  viewport : Transform K

namespace Area

variable {N K : Type} [Zero K] [One K] [BEq K]

/-- The pixels that a side of the drawing area takes with its padding. -/
def extent [Measure N K] (side padding : N) : Except Fault Nat := do
  let length ← Measure.plus side (Measure.twice padding)
  .ok (← Measure.ceiling length).toNat

variable [Add K] [Mul K] [Neg K] [SelfEqualUnits K] [Reported K]

/-- The drawing area of a given width, height and padding. Its surface is made before anything is computed of the
viewport. -/
def make [Measure N K] [Div K] [OfNat K 2] (width height padding : N)
    (makeSurface : Size → Except Fault Unit := fun _ => .ok ()) : Except Fault (Area K) := do
  let columns ← extent width padding
  let rows ← extent height padding
  makeSurface ⟨columns, rows⟩
  let viewport ← Transform.paddedViewport (← Measure.coordinate width) (← Measure.coordinate height)
    (← Measure.coordinate padding)
  .ok ⟨⟨columns, rows⟩, viewport⟩

def pathPixels (a : Area K) (p : Path K) : Except Fault (List (Point K)) :=
  p.transformedPoints (some a.viewport)

def xAxisPixels (a : Area K) : List (Point K) := a.viewport.applyAll [⟨-1, 0⟩, ⟨1, 0⟩]

def yAxisPixels (a : Area K) : List (Point K) := a.viewport.applyAll [⟨0, -1⟩, ⟨0, 1⟩]

end Area

end PlaneSketch
