import PlaneSketch.FormatSpec.Field
import PlaneSketch.Decimal.Layout

/-!
# Writing reals to a format

A finite double is written with a fixed number of places, with a fixed number of significant digits, or with
its shortest digits. In every case the digits are those of the exact value rounded once, a tie going to the
even neighbour. `DigitRow` is the outcome of the rounding, `DigitRow.lay` the choice between positional and
scientific form.
-/

namespace PlaneSketch

/-- Significant digits; the point stands `point` places behind the first one. -/
structure DigitRow where
  digits : List Char
  point : Int

namespace DigitRow

/-- A row without the zeros at its end, but with at least one digit. -/
def trim (r : DigitRow) : DigitRow :=
  match (r.digits.reverse.dropWhile (· = '0')).reverse with
  | [] => ⟨['0'], r.point⟩
  | ds => ⟨ds, r.point⟩

/-- The digit at a position counted from the first one; zeros stand on either side. -/
def digitAt (r : DigitRow) (i : Int) : Char := if i < 0 then '0' else r.digits.getD i.toNat '0'

def span (r : DigitRow) (first : Int) (count : Nat) : List Char :=
  (List.range count).map fun (k : Nat) => r.digitAt (first + k)

/-- The digits before the point, and what follows them: the point and the digits up to position `last`, and
the exponent if `scientific` is wanted. A point that nothing follows is dropped unless `keepPoint`. -/
def lay (r : DigitRow) (scientific : Option Char) (last : Int) (keepPoint : Bool) : List Char × List Char :=
  let point := if scientific.isSome then 1 else r.point
  let whole := if point ≤ 0 then ['0'] else r.span 0 point.toNat
  let fraction := r.span point (last - point).toNat
  let exponent := match scientific with
    | some mark => mark :: Decimal.exponentText (r.point - 1)
    | none => []
  (whole, (if fraction.isEmpty && !keepPoint then [] else '.' :: fraction) ++ exponent)

end DigitRow

namespace Binary64

/-- The digits of `units` units rounded to `places` places after the point. No double has a digit other than
zero behind place 1074. -/
def placesRow (units places : Nat) : DigitRow :=
  let places := min places 1074
  let ds := Nat.toDigits 10 (nearest (units * Nat.pow 10 places) unitsPerOne)
  ⟨ds, ds.length - places⟩

/-- The first `count` digits of `units` units, rounded; the exponent of the first one is at most `top`. -/
def significantFrom (units count : Nat) : Nat → Int → DigitRow
  | 0, top => ⟨['0'], top⟩
  | fuel + 1, top =>
    let (num, den) := Decimal.inSteps units (top - count + 1)
    if Nat.pow 10 (count - 1) ≤ num / den then
      let ds := Nat.toDigits 10 (nearest num den)
      ⟨ds.take count, top + 1 + (ds.length - count)⟩
    else significantFrom units count fuel (top - 1)

/-- The first `count` digits of `units` units, rounded. The digits of a double end before the 1100th. -/
def significantRow (units count : Nat) : DigitRow :=
  if units = 0 then ⟨['0'], 1⟩ else significantFrom units (min count 1100) 700 (Decimal.coarsest units)

def shortestRow (x : Binary64) (units : Nat) : DigitRow :=
  let d := Decimal.shortest x units
  ⟨d.digits, d.exponent + d.digits.length⟩

structure Parts where
  negative : Bool
  whole : List Char
  rest : List Char

/-- The presentations of a real: places, scientific digits, general digits, or the usual form. -/
inductive Presentation where
  | fixed
  | scientific
  | general
  | usual

/-- The first precision that is too big for a real. -/
def precisionLimit : Nat := Nat.pow 2 31

/-- The places behind the point of scientific form: six if no precision is given, and none at the greatest
precision, which leaves no room for the digit in front of the point. -/
def scientificPlaces : Option Nat → Nat
  | none => 6
  | some n => if n + 1 = precisionLimit then 0 else n

def finiteParts (p : Presentation) (x : Binary64) (units : Nat) (precision : Option Nat) (alternate : Bool)
    (mark : Char) : List Char × List Char :=
  match p, precision with
  | .fixed, _ =>
    let places := precision.getD 6
    let r := placesRow units places
    r.lay none (r.point + places) alternate
  | .scientific, _ =>
    let places := scientificPlaces precision
    (significantRow units (places + 1)).lay (some mark) (places + 1) alternate
  | .general, _ => general (max (precision.getD 6) 1) false
  | .usual, some n => general (max n 1) true
  | .usual, none => usualForm (shortestRow x units) (-4) 16
where
  /-- Scientific outside `least` to `next`, and otherwise with at least one digit behind the point. -/
  usualForm (r : DigitRow) (least next : Int) : List Char × List Char :=
    if r.point ≤ least ∨ next < r.point then r.lay (some mark) (max r.digits.length 1) alternate
    else r.lay none (max r.digits.length (r.point + 1)) alternate
  /-- At most `count` digits; `digitAfter` asks for a digit behind the point in positional form. -/
  general (count : Nat) (digitAfter : Bool) : List Char × List Char :=
    let r := (significantRow units count).trim
    let last : Int := if alternate then count else r.digits.length
    if r.point ≤ -4 ∨ (count : Int) - (if digitAfter then 1 else 0) < r.point then
      r.lay (some mark) (max last 1) alternate
    else r.lay none (max last (if digitAfter then r.point + 1 else r.point)) alternate

def parts (p : Presentation) (x : Binary64) (precision : Option Nat) (alternate upper : Bool) : Parts :=
  let word (s : String) := (if upper then s.toUpper else s).toList
  match x with
  | nan => ⟨false, [], word "nan"⟩
  | infinite s => ⟨s, [], word "inf"⟩
  | finite s n h =>
    let (whole, rest) := finiteParts p (finite s n h) n precision alternate (if upper then 'E' else 'e')
    ⟨s, whole, rest⟩

end Binary64

end PlaneSketch
