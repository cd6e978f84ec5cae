import PlaneSketch.Decimal.Basic
import PlaneSketch.Text.Digit

/-!
# Numerals

A numeral is an optional sign, digits with an optional point that has a digit on at least one side, and an
optional exponent. `Numeral.read?` recognises a whole text as a numeral, `Numeral.value` is the double
nearest to what it denotes, and `Numeral.finite?` accepts it only if that double is finite.
-/

namespace PlaneSketch

/-- A numeral taken apart: its sign, the digits before and after the point, and the exponent. -/
structure Numeral where
  negative : Bool
  whole : List Nat
  fraction : List Nat
  exponent : Int
  deriving DecidableEq

namespace Numeral

open Text

/-- A sign at the front of a text, as whether it is a minus, and what follows it. -/
def sign : List Char → Bool × List Char
  | '+' :: s => (false, s)
  | '-' :: s => (true, s)
  | s => (false, s)

/-- The exponent that makes up a whole text; an empty text stands for zero. -/
def exponentOf? : List Char → Option Int
  | [] => some 0
  | c :: s =>
    if c = 'e' ∨ c = 'E' then
      let (negative, s) := sign s
      match digitRow s with
      | ([], _) => none
      | (ds, []) => some (if negative then -(digitsValue ds : Int) else digitsValue ds)
      | (_, _ :: _) => none
    else none

/-- The digits behind a point at the front of a text, and what follows them; no digits without a point. -/
def fractionRow : List Char → List Nat × List Char
  | '.' :: s => digitRow s
  | s => ([], s)

def read? (s : List Char) : Option Numeral :=
  let (negative, s) := sign s
  let (whole, s) := digitRow s
  let (fraction, s) := fractionRow s
  if whole.isEmpty && fraction.isEmpty then none
  else (exponentOf? s).map fun exponent => ⟨negative, whole, fraction, exponent⟩

def toDecimal (n : Numeral) : Decimal :=
  ⟨digitsValue (n.whole ++ n.fraction), n.exponent - n.fraction.length⟩

def value (n : Numeral) : Binary64 := n.toDecimal.toBinary64 n.negative

/-- The value of a text that is a numeral of finite value. -/
def finite? (s : List Char) : Option Binary64 :=
  match read? s with
  | some n => if n.value.isFinite then some n.value else none
  | none => none

end Numeral

/-- The number that the library's own text form denotes, the words for what is not finite included. -/
def Binary64.ofText? (s : String) : Option Binary64 :=
  if s = "nan" then some .nan
  else if s = "inf" then some (.infinite false)
  else if s = "-inf" then some (.infinite true)
  else (Numeral.read? s.toList).map Numeral.value

end PlaneSketch
