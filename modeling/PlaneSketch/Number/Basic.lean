import PlaneSketch.Decimal.Layout
import PlaneSketch.Binary64.Arith

/-!
# Numbers as they are given

Sizes, widths and colour components may be given as integers of any size or as doubles, and are shown again
in the form in which they were given. Integers are compared and added exactly; only where an integer meets
a double does it become a double itself.
-/

namespace PlaneSketch

inductive Number where
  | int (i : Int)
  | real (x : Binary64)
  deriving DecidableEq

namespace Number

def toBinary64? : Number → Option Binary64
  | int i => if (Binary64.ofInt i).isFinite then some (.ofInt i) else none
  | real x => some x

def text : Number → String
  | int i => toString i
  | real x => x.text

/-- The value in units of `2 ^ -1074`, the infinities standing just outside the finite doubles. -/
def units? : Number → Option Int
  | int i => some (i * Binary64.unitsPerOne)
  | real x => x.units?

/-- Whether the number is above zero; `nan` is not. -/
def isPositive (n : Number) : Bool := n.units?.any fun u => decide (0 < u)

def isBelowZero (n : Number) : Bool := n.units?.any fun u => decide (u < 0)

def isAtMostZero (n : Number) : Bool := n.units?.any fun u => decide (u ≤ 0)

def isAtMostOne (n : Number) : Bool := n.units?.any fun u => decide (u ≤ (Binary64.unitsPerOne : Int))

def double : Number → Number
  | int i => int (2 * i)
  | real x => real (2 * x)

/-- The sum of two numbers, a double as soon as one of them is; none if the other is then out of range. -/
def add? : Number → Number → Option Number
  | int i, int j => some (int (i + j))
  | m, n =>
    match m.toBinary64?, n.toBinary64? with
    | some x, some y => some (real (x + y))
    | _, _ => none

end Number

/-- A bracketed, comma separated list of texts. -/
def bracketed (items : List String) : String := "[" ++ ", ".intercalate items ++ "]"

end PlaneSketch
