import PlaneSketch.FormatSpec.Writer
import PlaneSketch.Decimal.Places

/-!
# Templates

A specification is put into braces behind a colon, and what stands there is read as a template with one
value: the first field is written to the specification up to the brace that closes it. Doubled braces stand
for themselves; a further field has no value to write and fails, in a way that depends on its form.
-/

namespace PlaneSketch

namespace Template

open FormatSpec

def openBrace : Char := Char.ofNat 123

def closeBrace : Char := Char.ofNat 125

/-- What stands before the brace that closes `depth` open ones, and what follows it. -/
def untilClosed : Nat → List Char → Option (List Char × List Char)
  | _, [] => none
  | depth, c :: s =>
    if c = closeBrace then
      match depth with
      | 0 | 1 => some ([], s)
      | depth + 2 => (untilClosed (depth + 1) s).map fun r => (c :: r.1, r.2)
    else (untilClosed (if c = openBrace then depth + 1 else depth) s).map fun r => (c :: r.1, r.2)

/-- The name of a field, the character that ends it, and what follows. -/
def fieldName (inBrackets : Bool) : List Char → Except FormatFault (List Char × Char × List Char)
  | [] => .error .unclosedField
  | c :: s =>
    if inBrackets then (fieldName (c != ']') s).map fun r => (c :: r.1, r.2)
    else if c = openBrace then .error .openingInName
    else if c = closeBrace ∨ c = ':' ∨ c = '!' then .ok ([], c, s)
    else (fieldName (c == '[') s).map fun r => (c :: r.1, r.2)

/-- The fault of looking up a field beyond the first one by its name. -/
def lookUpFault (name : List Char) : FormatFault :=
  let first := name.takeWhile fun c => c ≠ '.' && c ≠ '['
  if first.isEmpty then .fieldOutOfRange
  else
    match Text.digitRow first with
    | (ds, []) => if digitsFit ds then .numberedField else .tooManyDigits
    | (ds, _) => if digitsFit ds then .namedField (String.ofList first) else .tooManyDigits
where
  digitsFit (ds : List Nat) : Bool := decide (Text.digitsValue ds < numberLimit)

def fieldFault (s : List Char) : FormatFault :=
  match fieldName false s with
  | .error fault => fault
  | .ok (name, stop, rest) =>
    let specFault (rest : List Char) : FormatFault :=
      if (untilClosed 1 rest).isSome then lookUpFault name else .unmatchedOpening
    if stop = closeBrace then lookUpFault name
    else if stop = ':' then specFault rest
    else
      match rest with
      | [] => .missingConversion
      | [_] => .unmatchedOpening
      | _ :: c :: rest =>
        if c = closeBrace then lookUpFault name else if c = ':' then specFault rest else .colonAfterConversion

/-- The text of a template that has no value left for a field. -/
def literal : List Char → Except FormatFault (List Char)
  | [] => .ok []
  | [c] =>
    if c = openBrace then .error .loneOpening else if c = closeBrace then .error .loneClosing else .ok [c]
  | c :: d :: s =>
    if c = openBrace then
      if d = openBrace then (literal s).map (c :: ·) else .error (fieldFault (d :: s))
    else if c = closeBrace then
      if d = closeBrace then (literal s).map (c :: ·) else .error .loneClosing
    else (literal (d :: s)).map (c :: ·)

def write (d : Datum) (spec : String) : Except FormatFault String := do
  match untilClosed 1 (spec.toList ++ [closeBrace]) with
  | none => .error .unmatchedOpening
  | some (inner, rest) =>
    let inner ← if inner.contains openBrace then literal inner else .ok inner
    let field ← d.write inner
    .ok (String.ofList (field ++ (← literal rest)))

end Template

/-- A value as text: written to a specification if there is one, else in the default form, in which a real
is rounded to six places. -/
def Datum.format (d : Datum) : Option String → Except FormatFault String
  | some spec => Template.write d spec
  | none =>
    match d with
    | .real x => .ok x.toSixPlaces
    | d => .ok d.plainText

end PlaneSketch
