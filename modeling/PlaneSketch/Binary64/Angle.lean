import PlaneSketch.Binary64.Arith

/-!
# Sines and cosines

The sine and cosine of a double are computed on a fixed binary grid that is much finer than the spacing of
the results, by taking the angle modulo a quarter turn and summing the alternating series, and then
rounded once. A quarter turn is computed from two arctangent series. On the grid a result never exceeds
one, so the sine and cosine of a finite angle are finite.
-/

namespace PlaneSketch.Binary64

/-- The binary places of the grid on which an angle is taken modulo a quarter turn. -/
def anglePlaces : Nat := 2400

def seriesPlaces : Nat := 1300

/-- `t - (t' - (t'' - …))` over the terms `power / (2 * k + 1)`, where each power is the previous one
divided by `square`. -/
def arctanSeries (square : Nat) : Nat → Nat → Nat → Nat
  | 0, _, _ => 0
  | fuel + 1, k, power => power / (2 * k + 1) - arctanSeries square fuel (k + 1) (power / square)

/-- The arctangent of `1 / q` in units of `2 ^ -anglePlaces`. -/
def arctanInverse (q : Nat) : Nat := arctanSeries (q * q) anglePlaces 0 (Nat.pow 2 anglePlaces / q)

/-- A quarter turn in units of `2 ^ -anglePlaces`. -/
def quarterTurn : Nat := 8 * arctanInverse 5 - 2 * arctanInverse 239

/-- `t - (t' - (t'' - …))` where each term is the previous one times `square / ((k + 1) * (k + 2))`, with
`k` going up by two; both `term` and `square` are in units of `2 ^ -seriesPlaces`. -/
def alternatingSeries (square : Nat) : Nat → Nat → Nat → Nat
  | 0, _, _ => 0
  | fuel + 1, k, term =>
    if term = 0 then 0
    else
      term - alternatingSeries square fuel (k + 2) (term * square / Nat.pow 2 seriesPlaces / ((k + 1) * (k + 2)))

/-- Cosine and sine of an angle in the first quarter turn, all in units of `2 ^ -seriesPlaces`. -/
def firstQuarter (angle : Nat) : Nat × Nat :=
  let one := Nat.pow 2 seriesPlaces
  let square := angle * angle / one
  (min one (alternatingSeries square seriesPlaces 0 one),
    min one (alternatingSeries square seriesPlaces 1 angle))

/-- The double nearest to a count of units of `2 ^ -seriesPlaces`. -/
def ofSeries (negative : Bool) (n : Nat) : Binary64 :=
  ofRatio negative (n * unitsPerOne) (Nat.pow 2 seriesPlaces)

def cosSin : Binary64 → Binary64 × Binary64
  | finite s n _ =>
    let angle := n * Nat.pow 2 (anglePlaces - 1074)
    let (c, d) := firstQuarter (angle % quarterTurn / Nat.pow 2 (anglePlaces - seriesPlaces))
    match angle / quarterTurn % 4 with
    | 0 => (ofSeries false c, ofSeries s d)
    | 1 => (ofSeries true d, ofSeries s c)
    | 2 => (ofSeries true c, ofSeries (!s) d)
    | _ => (ofSeries false d, ofSeries (!s) c)
  | _ => (nan, nan)

def radiansPerDegree : Binary64 := ofFraction 17453292519943295 (Nat.pow 10 18)

def direction (degrees : Binary64) : Binary64 × Binary64 := cosSin (degrees * radiansPerDegree)

end PlaneSketch.Binary64
