import PlaneSketch.Decimal.Layout
import PlaneSketch.Binary64.Arith

/-!
# Rounding to decimal places

A double is rounded to a number of decimal places by rounding its exact value to the nearest such decimal, a
tie going to the even one, and taking the double nearest to that.
-/

namespace PlaneSketch.Binary64

/-- The double nearest to the value rounded to `places` decimal places. -/
def roundPlaces (places : Nat) : Binary64 → Binary64
  | finite s n _ => Decimal.toBinary64 s ⟨nearest (n * Nat.pow 10 places) unitsPerOne, -places⟩
  | x => x

/-- The text of the value rounded to six places, without the sign of a zero. -/
def toSixPlaces (x : Binary64) : String := (x.roundPlaces 6 + 0).text

end PlaneSketch.Binary64
