import PlaneSketch.Decimal.Basic

/-!
# Shortest decimals

`Decimal.shortest` finds, for a finite double, a decimal with the fewest digits that reads back as that
double, and of those with as few digits the one nearest to it. It walks from a grid of decimals that is
certainly coarse enough to the finer ones, and on each grid looks at the two neighbours of the value; on
the last grid the value itself lies.
-/

namespace PlaneSketch.Decimal

/-- `units` units as a quotient counted in steps of `10 ^ exponent`. -/
def inSteps (units : Nat) : Int → Nat × Nat
  | .ofNat e => (units, Binary64.unitsPerOne * Nat.pow 10 e)
  | .negSucc k => (units * Nat.pow 10 (k + 1), Binary64.unitsPerOne)

/-- The multiple of `10 ^ exponent` nearest to `units` units, then its neighbour on the value's other side. -/
def neighbours (units : Nat) (exponent : Int) : List Decimal :=
  let (num, den) := inSteps units exponent
  let c := nearest num den
  [⟨c, exponent⟩, ⟨if c * den ≤ num then c + 1 else c - 1, exponent⟩]

/-- Whether the decimal reads back as the given double. -/
def ReadsAs (x : Binary64) (d : Decimal) : Prop := d.toBinary64 x.isNegative = x

instance (x : Binary64) (d : Decimal) : Decidable (d.ReadsAs x) := inferInstanceAs (Decidable (_ = _))

def exact (units : Nat) : Decimal := ⟨units * Nat.pow 5 1074, -1074⟩

/-- The first decimal that reads back as `x` on the grids from `10 ^ exponent` on to finer ones. -/
def shortestFrom (x : Binary64) (units : Nat) : Nat → Int → Decimal
  | 0, _ => exact units
  | finer + 1, exponent =>
    match (neighbours units exponent).find? fun d => d.ReadsAs x with
    | some d => d
    | none => shortestFrom x units finer (exponent - 1)

/-- A power of ten whose exponent is above that of `units` units. -/
def coarsest (units : Nat) : Int := ((units.log2 : Int) - 1073) * 30103 / 100000 + 1

/-- The decimal with the fewest digits that reads back as a finite double of `units` units. -/
def shortest (x : Binary64) (units : Nat) : Decimal :=
  if units = 0 then ⟨0, 0⟩
  else
    let e := coarsest units
    (shortestFrom x units (e + 1074).toNat e).trim

end PlaneSketch.Decimal
