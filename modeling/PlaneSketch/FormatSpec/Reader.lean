import PlaneSketch.FormatSpec.Basic
import PlaneSketch.Text.Digit

/-!
# Reading format specifications

The parts of a specification stand in a fixed order and each may be missing: fill and alignment, sign, `z`,
`#`, `0`, width, separator, precision and presentation. Each reader takes its part from the front of a text
and hands on the rest.
-/

namespace PlaneSketch.FormatSpec

open Text

def alignment? : Char → Option Alignment
  | '<' => some .left
  | '>' => some .right
  | '^' => some .centre
  | '=' => some .inner
  | _ => none

/-- The fill and the alignment at the front. A fill is only read together with an alignment. -/
def readAlignment : List Char → Option Char × Option Alignment × List Char
  | [] => (none, none, [])
  | [c] =>
    match alignment? c with
    | some a => (none, some a, [])
    | none => (none, none, [c])
  | c :: d :: s =>
    match alignment? d with
    | some a => (some c, some a, s)
    | none =>
      match alignment? c with
      | some a => (none, some a, d :: s)
      | none => (none, none, c :: d :: s)

def readSign : List Char → Option SignRule × List Char
  | '+' :: s => (some .plus, s)
  | '-' :: s => (some .minus, s)
  | ' ' :: s => (some .space, s)
  | s => (none, s)

def readMark (mark : Char) : List Char → Bool × List Char
  | [] => (false, [])
  | c :: s => if c = mark then (true, s) else (false, c :: s)

/-- The first number that is too large for a width, a precision or the choice of a character. -/
def numberLimit : Nat := Nat.pow 2 63

/-- The number at the front, if there is one, and what follows it. -/
def readNumber (s : List Char) : Except FormatFault (Option Nat × List Char) :=
  match digitRow s with
  | ([], rest) => .ok (none, rest)
  | (ds, rest) =>
    if digitsValue ds < numberLimit then .ok (some (digitsValue ds), rest) else .error .tooManyDigits

def readSeparator (s : List Char) : Except FormatFault (Option Char × List Char) :=
  match readMark ',' s with
  | (true, '_' :: _) => .error .bothSeparators
  | (true, s) => .ok (some ',', s)
  | (false, s) =>
    match readMark '_' s with
    | (true, ',' :: _) => .error .bothSeparators
    | (true, s) => .ok (some '_', s)
    | (false, s) => .ok (none, s)

def readPrecision (s : List Char) : Except FormatFault (Option Nat × List Char) := do
  match readMark '.' s with
  | (false, s) => .ok (none, s)
  | (true, s) =>
    match ← readNumber s with
    | (some n, s) => .ok (some n, s)
    | (none, _) => .error .missingPrecision

/-- The groups that a separator makes in a given presentation. -/
def groupingFor (separator : Char) : Option Char → Except FormatFault Grouping
  | none => .ok ⟨separator, 3⟩
  | some p =>
    if p ∈ ['d', 'e', 'f', 'g', 'E', 'G', '%', 'F'] then .ok ⟨separator, 3⟩
    else if separator = '_' ∧ p ∈ ['b', 'o', 'x', 'X'] then .ok ⟨separator, 4⟩
    else .error (.separatorWith separator p)

/-- The specification that makes up a text, for values of a given kind with their usual alignment and
presentation. -/
def read (kind : String) (usual : Alignment) (usualPresentation : Option Char) (text : List Char) :
    Except FormatFault FormatSpec := do
  let (fill, alignment, s) := readAlignment text
  let (sign, s) := readSign s
  let (dropNegativeZero, s) := readMark 'z' s
  let (alternate, s) := readMark '#' s
  let (zeros, s) := if fill.isNone then readMark '0' s else (false, s)
  let alignment := alignment.getD (if zeros && usual == .right then .inner else usual)
  let (width, s) ← readNumber s
  let (separator, s) ← readSeparator s
  let (precision, s) ← readPrecision s
  let presentation ← match s with
    | [] => .ok usualPresentation
    | [c] => .ok (some c)
    | _ => .error (.surplus (String.ofList text) kind)
  let grouping ← match separator with
    | none => .ok none
    | some c => (groupingFor c presentation).map some
  .ok { fill := if zeros then '0' else fill.getD ' ', alignment, sign, dropNegativeZero, alternate, width,
        grouping, precision, presentation }

end PlaneSketch.FormatSpec
