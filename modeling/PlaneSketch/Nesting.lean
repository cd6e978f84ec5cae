import PlaneSketch.Number.Checked
import PlaneSketch.Transform.Double

/-!
# Nested lists of numbers

Points and matrices may be given as nested lists. A nesting is regular if all its numbers lie at the same
depth and lists at the same depth have the same length; then it has a shape, the lengths from the outside
in. A matrix is a nesting of shape 3 by 3; a sequence of points is any regular nesting with an even number
of numbers, which are read in order and taken in pairs.
-/

namespace PlaneSketch

inductive Nesting where
  | number (n : Number)
  | list (items : List Nesting)

namespace Nesting

mutual

/-- The lengths of the lists from the outside in, if the nesting is regular. -/
def shape? : Nesting → Option (List Nat)
  | number _ => some []
  | list items => shapes? items

/-- The shape of the list of the given nestings. -/
def shapes? : List Nesting → Option (List Nat)
  | [] => some [0]
  | [n] => n.shape?.map (1 :: ·)
  | n :: m :: ns =>
    match n.shape?, shapes? (m :: ns) with
    | some s, some (k :: rest) => if s = rest then some ((k + 1) :: s) else none
    | _, _ => none

end

mutual

def numbers : Nesting → List Number
  | number n => [n]
  | list items => allNumbers items

def allNumbers : List Nesting → List Number
  | [] => []
  | n :: ns => n.numbers ++ allNumbers ns

end

/-- The levels that a regular nesting may have, as the library of arrays documents them. -/
def documentedLevels : Nat := 64

def TooDeep (levels : Nat) (shape : List Nat) : Prop := levels < shape.length

instance (levels : Nat) (shape : List Nat) : Decidable (TooDeep levels shape) := inferInstanceAs (Decidable (_ < _))

end Nesting

/-- A list cut into pairs; none if one element is left over. -/
def pairs? {α : Type} : List α → Option (List (α × α))
  | [] => some []
  | [_] => none
  | x :: y :: rest => (pairs? rest).map ((x, y) :: ·)

namespace Nesting

/-- The shape of a regular nesting and its numbers as doubles. -/
def regular (n : Nesting) (levels : Nat := documentedLevels) : Except Fault (List Nat × List Binary64) :=
  match n.shape? with
  | none => .error .unevenNesting
  | some shape =>
    if TooDeep levels shape then .error .unevenNesting else (doubles n.numbers).map fun xs => (shape, xs)

def points (n : Nesting) (levels : Nat := documentedLevels) : Except Fault (List (Point Binary64)) := do
  let (_, xs) ← n.regular levels
  match pairs? xs with
  | some ps => .ok (ps.map fun p => ⟨p.1, p.2⟩)
  | none => .error .oddCoordinateCount

def transform (n : Nesting) (levels : Nat := documentedLevels) : Except Fault (Transform Binary64) := do
  match ← n.regular levels with
  | ([3, 3], [a, c, e, b, d, f, g, h, i]) => Transform.ofMatrix ⟨⟨a, c, e⟩, ⟨b, d, f⟩, ⟨g, h, i⟩⟩
  | (shape, _) => .error (.matrixShape shape)

def coordinate : Nesting → Except Fault Binary64
  | number n => n.toBinary64
  | list _ => .error .notAPoint

/-- The two numbers of which a list consists; anything else is no point. -/
def exactPair : Nesting → Except Fault (Number × Number)
  | list [number m, number n] => .ok (m, n)
  | _ => .error .notAPoint

/-- The point that a list of two elements is; the length is checked before the elements. -/
def point : Nesting → Except Fault (Point Binary64)
  | number _ => .error .notAPoint
  | list [m, n] => do .ok ⟨← m.coordinate, ← n.coordinate⟩
  | list [] => .error (.tooFewCoordinates 0)
  | list [_] => .error (.tooFewCoordinates 1)
  | list (_ :: _ :: _ :: _) => .error .tooManyCoordinates

def element (i : Nat) : Nesting → Except Fault Nesting
  | number _ => .error .notAPoint
  | list items =>
    match items[i]? with
    | some n => .ok n
    | none => .error .missingCoordinate

end Nesting

namespace Transform

/-- The sum of the products of corresponding entries, from the left, without a zero in front. -/
def bareDot (u v : Triple Binary64) : Binary64 := u.x * v.x + u.y * v.y + u.z * v.z

/-- The image of the point with two given coordinates. A coordinate beyond the machine words leaves out the
zero that sums start from, so then, and only then, the image may have a negative zero. -/
def applyNumbers (t : Transform Binary64) (m n : Number) : Except Fault (Point Binary64) := do
  let x ← m.toBinary64
  let y ← n.toBinary64
  if m.fitsWord && n.fitsWord then .ok (t.apply ⟨x, y⟩)
  else .ok ⟨bareDot t.matrix.top ⟨x, y, 1⟩, bareDot t.matrix.middle ⟨x, y, 1⟩⟩

/-- The images of the points that a nesting lists. -/
def applyNesting (t : Transform Binary64) (n : Nesting) (levels : Nat := Nesting.documentedLevels) :
    Except Fault (List (Point Binary64)) :=
  (n.points levels).map t.applyAll

end Transform

end PlaneSketch
