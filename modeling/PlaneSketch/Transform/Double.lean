import PlaneSketch.Transform.Basic
import PlaneSketch.Binary64.Angle
import PlaneSketch.Decimal.Places

/-!
# Transforms in double precision

Rotations by an angle in degrees, the two written forms of a transform, equality up to a tolerance, and the
fingerprint that equal transforms share.
-/

namespace PlaneSketch

instance : SelfEqualUnits Binary64 := ⟨by decide +kernel, by decide +kernel⟩

instance : Reported Binary64 := ⟨id⟩

namespace Transform

/-- The counter-clockwise rotation by an angle in degrees. -/
def rotation (degrees : Binary64) : Transform Binary64 :=
  turn degrees.direction.1 degrees.direction.2

variable (t u : Transform Binary64)

def isFinite : Bool := t.coefficients.all Binary64.isFinite

/-- The entries rounded to single precision, row by row, above the row `(0, 0, 1)`. -/
def singleEntries : List Binary64 :=
  [t.a, t.c, t.e, t.b, t.d, t.f, 0, 0, 1].map Binary64.toSingle

/-! ### Written forms -/

def coefficientNames : List String := ["a", "b", "c", "d", "e", "f"]

/-- The coefficients to six places, each with its name. -/
def summary : String :=
  ", ".intercalate (List.zipWith (fun name x => name ++ ": " ++ x.toSixPlaces) coefficientNames t.coefficients)

def literal : String :=
  "AffineTransform(" ++
    ", ".intercalate (List.zipWith (fun name x => name ++ "=" ++ x.text) coefficientNames t.coefficients) ++ ")"

/-! ### Comparison -/

/-- Whether `x` is within `tol` of a finite `y`, or both have the same value. -/
def closeEntry (tol x y : Binary64) : Bool :=
  (decide ((x - y).abs ≤ tol) && y.isFinite) || x == y

/-- The tolerance that is meant when none is given. -/
def defaultTolerance : Binary64 := .ofFraction 1 1000000000

def isClose (tol : Binary64 := defaultTolerance) : Bool := t.matrix.related (closeEntry tol) u.matrix

end Transform

/-- A number that values equal to each other share: the value modulo the prime `2 ^ 61 - 1` with its sign,
a half counting as `2 ^ 60`; the infinities stand at `±314159`, and `-1` shares the fingerprint of `-2`. -/
def Binary64.fingerprint : Binary64 → Option Int
  | .nan => none
  | .infinite s => some (if s then -314159 else 314159)
  | .finite s n _ =>
    let p := Nat.pow 2 61 - 1
    let r : Int := (n * Nat.pow 2 ((61 - 1074 % 61) % 61) % p : Nat)
    some (if s then (if r = 1 then -2 else -r) else r)

def Transform.fingerprint (t : Transform Binary64) : List (Option Int) :=
  t.coefficients.map Binary64.fingerprint

end PlaneSketch
