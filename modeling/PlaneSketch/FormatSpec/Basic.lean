import PlaneSketch.Fault

/-!
# Format specifications

A format specification says how a value is written: what it is aligned to and filled with, which signs are
shown, its width and precision, how digits are grouped, and which presentation is used.
-/

namespace PlaneSketch

/-- Where the value stands within its width; `inner` fills between the sign and the digits. -/
inductive Alignment where
  | left
  | right
  | centre
  | inner
  deriving DecidableEq

/-- What stands in front of a number that is not negative. -/
inductive SignRule where
  | minus
  | plus
  | space
  deriving DecidableEq

/-- A separator between groups of digits, and how many digits make up a group. -/
structure Grouping where
  separator : Char
  size : Nat
  deriving DecidableEq

structure FormatSpec where
  fill : Char
  alignment : Alignment
  sign : Option SignRule
  dropNegativeZero : Bool
  alternate : Bool
  width : Option Nat
  grouping : Option Grouping
  precision : Option Nat
  presentation : Option Char
  deriving DecidableEq

/-- The values that are written to a format. -/
inductive Datum where
  | integer (i : Int)
  | real (x : Binary64)
  | text (s : String)
  | boolean (b : Bool)
  | missing

def Datum.kind : Datum → String
  | integer _ => "int"
  | real _ => "float"
  | text _ => "str"
  | boolean _ => "bool"
  | missing => "NoneType"

/-- Why a value cannot be written to a format. -/
inductive FormatFault where
  | tooManyDigits
  | fieldTooWide
  | bothSeparators
  | missingPrecision
  | surplus (spec kind : String)
  | separatorWith (separator presentation : Char)
  | unknownPresentation (presentation : Char) (kind : String)
  | precisionOfInteger
  | precisionTooBig
  | negativeZeroOfInteger
  | signOfCharacter
  | alternateCharacter
  | characterRange
  | integerTooLarge
  | signOfText
  | spaceOfText
  | negativeZeroOfText
  | alternateText
  | innerAlignmentOfText
  | noFormat
  | loneClosing
  | loneOpening
  | unmatchedOpening
  | openingInName
  | unclosedField
  | missingConversion
  | colonAfterConversion
  | fieldOutOfRange
  | numberedField
  | namedField (name : String)
  deriving DecidableEq

namespace FormatFault

def kind : FormatFault → FaultKind
  | characterRange | integerTooLarge => .overflow
  | noFormat => .form
  | fieldTooWide => .memory
  | fieldOutOfRange => .position
  | namedField _ => .key
  | tooManyDigits | bothSeparators | missingPrecision | surplus .. | separatorWith .. | unknownPresentation .. |
    precisionOfInteger | precisionTooBig | negativeZeroOfInteger | signOfCharacter | alternateCharacter | signOfText |
    spaceOfText | negativeZeroOfText | alternateText | innerAlignmentOfText | loneClosing | loneOpening |
    unmatchedOpening | openingInName | unclosedField | missingConversion | colonAfterConversion | numberedField =>
    .value

def shown (c : Char) : String :=
  if 32 < c.toNat ∧ c.toNat < 128 then c.toString else "\\x" ++ String.ofList (Nat.toDigits 16 c.toNat)

/-- The wording of a fault, if it has one. -/
def message? : FormatFault → Option String
  | tooManyDigits => some "Too many decimal digits in format string"
  | fieldTooWide => some ""
  | bothSeparators => some "Cannot specify both ',' and '_'."
  | missingPrecision => some "Format specifier missing precision"
  | surplus spec kind => some ("Invalid format specifier '" ++ spec ++ "' for object of type '" ++ kind ++ "'")
  | separatorWith s c => some ("Cannot specify '" ++ s.toString ++ "' with '" ++ shown c ++ "'.")
  | unknownPresentation c kind =>
    some ("Unknown format code '" ++ shown c ++ "' for object of type '" ++ kind ++ "'")
  | precisionOfInteger => some "Precision not allowed in integer format specifier"
  | precisionTooBig => some "precision too big"
  | negativeZeroOfInteger => some "Negative zero coercion (z) not allowed in integer format specifier"
  | signOfCharacter => some "Sign not allowed with integer format specifier 'c'"
  | alternateCharacter => some "Alternate form (#) not allowed with integer format specifier 'c'"
  | characterRange => none
  | integerTooLarge => none
  | signOfText => some "Sign not allowed in string format specifier"
  | spaceOfText => some "Space not allowed in string format specifier"
  | negativeZeroOfText => some "Negative zero coercion (z) not allowed in string format specifier"
  | alternateText => some "Alternate form (#) not allowed in string format specifier"
  | innerAlignmentOfText => some "'=' alignment not allowed in string format specifier"
  | noFormat => none
  | loneClosing => some "Single '\x7d' encountered in format string"
  | loneOpening => some "Single '\x7b' encountered in format string"
  | unmatchedOpening => some "unmatched '\x7b' in format spec"
  | openingInName => some "unexpected '\x7b' in field name"
  | unclosedField => some "expected '\x7d' before end of string"
  | missingConversion => some "end of string while looking for conversion specifier"
  | colonAfterConversion => some "expected ':' after conversion specifier"
  | fieldOutOfRange => some "Replacement index 1 out of range for positional args tuple"
  | numberedField => some "cannot switch from automatic field numbering to manual field specification"
  | namedField name => some name

end FormatFault

end PlaneSketch
