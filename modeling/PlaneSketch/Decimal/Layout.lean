import PlaneSketch.Decimal.Shortest

/-!
# Writing numbers

A number is written with its shortest digits: with a point and at least one digit on either side of it as
long as the decimal exponent of its first digit is in the positional range, else as a significand
followed by `e`, a sign and at least two digits of exponent.
-/

namespace PlaneSketch

/-- The decimal exponents of the first digit that are written positionally, from `least` to below `next`. -/
structure PositionalRange where
  least : Int
  next : Int

/-- Positional from `0.0001` to below `10 ^ 16`. -/
def PositionalRange.standard : PositionalRange := ⟨-4, 16⟩

namespace Decimal

/-- An exponent with its sign and at least two digits. -/
def exponentText (e : Int) : List Char :=
  let ds := Nat.toDigits 10 e.natAbs
  (if e < 0 then '-' else '+') :: (if ds.length < 2 then '0' :: ds else ds)

def positional (ds : List Char) (point : Int) : List Char :=
  if point ≤ 0 then '0' :: '.' :: (List.replicate (-point).toNat '0' ++ ds)
  else
    let k := point.toNat
    let fraction := ds.drop k
    (ds.take k ++ List.replicate (k - ds.length) '0') ++ '.' :: (if fraction.isEmpty then ['0'] else fraction)

/-- Digits as a significand and a power of ten, the first digit standing for multiples of `10 ^ exponent`. -/
def scientific (ds : List Char) (exponent : Int) : List Char :=
  match ds with
  | [] => []
  | [d] => d :: 'e' :: exponentText exponent
  | d :: fraction => d :: '.' :: (fraction ++ 'e' :: exponentText exponent)

def text (range : PositionalRange) (d : Decimal) : List Char :=
  let ds := d.digits
  let first := d.exponent + ds.length - 1
  if range.least ≤ first ∧ first < range.next then positional ds (first + 1) else scientific ds first

end Decimal

namespace Binary64

/-- The text of a number: its shortest digits, or a word for what is not finite. -/
def text : Binary64 → String
  | nan => "nan"
  | infinite s => if s then "-inf" else "inf"
  | finite s n h =>
    let body := (Decimal.shortest (finite s n h) n).text .standard
    String.ofList (if s then '-' :: body else body)

end Binary64

end PlaneSketch
