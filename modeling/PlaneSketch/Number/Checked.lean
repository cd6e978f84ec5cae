import PlaneSketch.Number.Basic
import PlaneSketch.Fault

/-!
# Checked conversions

Numbers as doubles and as whole numbers, where the value that does not fit is reported as a fault.
-/

namespace PlaneSketch

namespace Number

/-- The double nearest to a number; `fault` is reported if it is out of range. -/
def toBinary64Or (fault : Fault) (n : Number) : Except Fault Binary64 :=
  match n.toBinary64? with
  | some x => .ok x
  | none => .error fault

def toBinary64 (n : Number) : Except Fault Binary64 := n.toBinary64Or .numberTooLarge

/-- Whether the number is a double, or an integer that a machine word of 64 bits holds with or without a sign. -/
def fitsWord : Number → Bool
  | int i => decide (-(Nat.pow 2 63 : Nat) ≤ i) && decide (i < (Nat.pow 2 64 : Nat))
  | real _ => true

/-- The double that an angle or a tolerance stands for; an integer has to fit into a machine word. -/
def measure (n : Number) : Except Fault Binary64 := if n.fitsWord then n.toBinary64 else .error .beyondWord

/-- The sum of two numbers, unless one has to become a double and is out of range. -/
def add (m n : Number) : Except Fault Number :=
  match m.add? n with
  | some k => .ok k
  | none => .error .numberTooLarge

def ceiling : Number → Except Fault Int
  | int i => .ok i
  | real x =>
    match x.ceil? with
    | some i => .ok i
    | none => .error (if x.isNaN then .ceilingOfNaN else .ceilingOfInfinity)

end Number

def doubles : List Number → Except Fault (List Binary64)
  | [] => .ok []
  | n :: ns => do
    let x ← n.toBinary64
    .ok (x :: (← doubles ns))

end PlaneSketch
