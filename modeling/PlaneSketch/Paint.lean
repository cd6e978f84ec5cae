import PlaneSketch.Color.Basic

/-!
# Paints

A paint says how lines are stroked: a colour, which is held in bytes, a width in single precision, and the
form of caps and joins. Styles are given by their names.
-/

namespace PlaneSketch

inductive Cap where
  | butt
  | round
  | square
  deriving DecidableEq

inductive Join where
  | miter
  | round
  | bevel
  deriving DecidableEq

/-- Whether the inside of a figure is painted or its outline. -/
inductive Fill where
  | inside
  | outline
  deriving DecidableEq

/-- A style of one of the three kinds. -/
inductive Style where
  | cap (c : Cap)
  | join (j : Join)
  | style (f : Fill)
  deriving DecidableEq

namespace Style

def named {α : Type} (table : List (String × α)) (name : String) : Except Fault α :=
  match table.lookup name with
  | some x => .ok x
  | none => .error (.unknownStyle name)

def caps : List (String × Cap) := [("butt", .butt), ("round", .round), ("square", .square)]

def joins : List (String × Join) := [("miter", .miter), ("round", .round), ("bevel", .bevel)]

def fills : List (String × Fill) := [("fill", .inside), ("stroke", .outline)]

/-- The style with a given name among those of a given kind. -/
def read (kind name : String) : Except Fault Style :=
  if kind = "cap" then (named caps name).map cap
  else if kind = "join" then (named joins name).map join
  else if kind = "style" then (named fills name).map style
  else .error (.unknownStyleKind kind)

end Style

structure Paint where
  color : Color
  width : Binary64
  fill : Fill
  cap : Cap
  join : Join
  antialias : Bool
  deriving DecidableEq

structure PaintSpec where
  color : ColorSpec := .black
  width : Number := .real 1
  fill : String := "stroke"
  cap : String := "butt"
  join : String := "miter"

namespace PaintSpec

/-- The width of a stroke; a width that is not at least zero counts as zero. -/
def strokeWidth (width : Binary64) : Binary64 := if 0 ≤ width then width else 0

/-- The paint of a specification. The colour is looked at first, then the fill, the cap and the join. -/
def paint (p : PaintSpec) : Except Fault Paint := do
  let color ← p.color.color
  let fill ← Style.named Style.fills p.fill
  let cap ← Style.named Style.caps p.cap
  let join ← Style.named Style.joins p.join
  let width ← p.width.toBinary64Or .widthTooLarge
  .ok ⟨color.quantized, strokeWidth width.toSingle, fill, cap, join, true⟩

end PaintSpec

end PlaneSketch
