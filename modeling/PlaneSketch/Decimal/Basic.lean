import PlaneSketch.Binary64.Basic

/-!
# Decimal numbers

A `Decimal` is a whole coefficient times a power of ten. `Decimal.toBinary64` is the double nearest to it, a
tie going to the even one; exponents that are certain to leave the range on either side are decided
without forming the power.
-/

namespace PlaneSketch

/-- The number `coefficient * 10 ^ exponent`. -/
structure Decimal where
  coefficient : Nat
  exponent : Int
  deriving DecidableEq

namespace Decimal

/-- The double nearest to a decimal with the given sign; infinite when it is out of range. -/
def toBinary64 (negative : Bool) (d : Decimal) : Binary64 :=
  if d.coefficient = 0 then .ofRatio negative 0 1
  else
    match d.exponent with
    | .ofNat e =>
      if 400 ≤ e then .infinite negative
      else .ofRatio negative (d.coefficient * Nat.pow 10 e * Binary64.unitsPerOne) 1
    | .negSucc k =>
      if d.coefficient.log2 + 1100 ≤ k then .ofRatio negative 0 1
      else .ofRatio negative (d.coefficient * Binary64.unitsPerOne) (Nat.pow 10 (k + 1))

def digits (d : Decimal) : List Char := Nat.toDigits 10 d.coefficient

/-- The same number with the zeros at the end of its digits moved into the exponent. -/
def trim (d : Decimal) : Decimal :=
  go d.digits.length d.coefficient d.exponent
where
  go : Nat → Nat → Int → Decimal
    | 0, c, e => ⟨c, e⟩
    | fuel + 1, c, e => if c ≠ 0 ∧ c % 10 = 0 then go fuel (c / 10) (e + 1) else ⟨c, e⟩

end Decimal

end PlaneSketch
