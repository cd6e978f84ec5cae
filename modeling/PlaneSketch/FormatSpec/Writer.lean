import PlaneSketch.FormatSpec.Reader
import PlaneSketch.FormatSpec.Real
import PlaneSketch.Binary64.Arith

/-!
# Writing values to a format

Integers, reals, texts and truth values written as a specification says. An integer takes the presentations
of a real as well, and is then rounded to a double first.
-/

namespace PlaneSketch

namespace FormatSpec

def realPresentation? : Option Char → Option (Binary64.Presentation × Bool)
  | none => some (.usual, false)
  | some 'e' => some (.scientific, false)
  | some 'E' => some (.scientific, true)
  | some 'f' => some (.fixed, false)
  | some 'F' => some (.fixed, true)
  | some 'g' => some (.general, false)
  | some 'G' => some (.general, true)
  | some 'n' => some (.general, false)
  | some '%' => some (.fixed, false)
  | some _ => none

/-- Whether all digits of a number are zero and it has one. -/
def isZeroText (s : List Char) : Bool :=
  s.any (· = '0') && (s.takeWhile fun c => c ≠ 'e' && c ≠ 'E').all fun c => c = '0' || c = '.'

def writeReal (spec : FormatSpec) (kind : String) (x : Binary64) : Except FormatFault (List Char) :=
  match realPresentation? spec.presentation with
  | none => .error (.unknownPresentation (spec.presentation.getD ' ') kind)
  | some (p, upper) =>
    if (spec.precision.any fun n => decide (Binary64.precisionLimit ≤ n)) then .error .precisionTooBig
    else
      let percent := spec.presentation == some '%'
      let x := if percent then x * 100 else x
      let t := x.parts p spec.precision spec.alternate upper
      let negative := t.negative && !(spec.dropNegativeZero && isZeroText (t.whole ++ t.rest))
      spec.placeNumber negative [] t.whole (if percent then t.rest ++ ['%'] else t.rest)

/-- The base of an integer presentation, the mark of the base, and whether its letters are upper case. -/
def integerBase? : Option Char → Option (Nat × List Char × Bool)
  | some 'b' => some (2, ['0', 'b'], false)
  | some 'o' => some (8, ['0', 'o'], false)
  | some 'x' => some (16, ['0', 'x'], false)
  | some 'X' => some (16, ['0', 'X'], true)
  | some 'd' => some (10, [], false)
  | some 'n' => some (10, [], false)
  | _ => none

/-- The character of a code point, in its field. -/
def writeCharacter (spec : FormatSpec) (i : Int) : Except FormatFault (List Char) :=
  if spec.sign.isSome then .error .signOfCharacter
  else if spec.alternate then .error .alternateCharacter
  else if i < -numberLimit ∨ numberLimit ≤ i then .error .integerTooLarge
  else if i < 0 ∨ 0x110000 ≤ i then .error .characterRange
  else spec.placeNumber false [] [] [Char.ofNat i.toNat]

def writeInteger (spec : FormatSpec) (kind : String) (i : Int) : Except FormatFault (List Char) :=
  if (realPresentation? spec.presentation).isSome && spec.presentation != some 'n' then
    if (Binary64.ofInt i).isFinite then spec.writeReal kind (.ofInt i) else .error .integerTooLarge
  else if spec.presentation != some 'c' && (integerBase? spec.presentation).isNone then
    .error (.unknownPresentation (spec.presentation.getD ' ') kind)
  else if spec.precision.isSome then .error .precisionOfInteger
  else if spec.dropNegativeZero then .error .negativeZeroOfInteger
  else
    match integerBase? spec.presentation with
    | none => spec.writeCharacter i
    | some (base, mark, upper) =>
      let digits := Nat.toDigits base i.natAbs
      let digits := if upper then digits.map Char.toUpper else digits
      spec.placeNumber (decide (i < 0)) (if spec.alternate then mark else []) digits []

def writeText (spec : FormatSpec) (kind : String) (s : String) : Except FormatFault (List Char) :=
  match spec.presentation with
  | some 's' =>
    match spec.sign with
    | some .space => .error .spaceOfText
    | some _ => .error .signOfText
    | none =>
      if spec.dropNegativeZero then .error .negativeZeroOfText
      else if spec.alternate then .error .alternateText
      else if spec.alignment = .inner then .error .innerAlignmentOfText
      else
        match spec.precision with
        | some n => spec.placeText (s.toList.take n)
        | none => spec.placeText s.toList
  | p => .error (.unknownPresentation (p.getD ' ') kind)

end FormatSpec

namespace Datum

/-- The value as it is written without any format. -/
def plainText : Datum → String
  | integer i => toString i
  | real x => x.text
  | text s => s
  | boolean b => if b then "True" else "False"
  | missing => "None"

/-- The value written to the specification in a text. -/
def write (d : Datum) (spec : List Char) : Except FormatFault (List Char) := do
  if spec.isEmpty then .ok d.plainText.toList
  else
    match d with
    | integer i => (← FormatSpec.read d.kind .right (some 'd') spec).writeInteger d.kind i
    | boolean b => (← FormatSpec.read d.kind .right (some 'd') spec).writeInteger d.kind (if b then 1 else 0)
    | real x => (← FormatSpec.read d.kind .right none spec).writeReal d.kind x
    | text s => (← FormatSpec.read d.kind .left (some 's') spec).writeText d.kind s
    | missing => .error .noFormat

end Datum

end PlaneSketch
