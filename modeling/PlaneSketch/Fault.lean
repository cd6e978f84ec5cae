import PlaneSketch.Matrix
import PlaneSketch.Number.Basic
import PlaneSketch.Text.Quoted

/-!
# Faults

What can go wrong in reading, composing and drawing, as causes. `Fault.kind` is what a caller can tell them apart by,
and `Fault.message?` is the wording; the causes that arise from values of the wrong form have none.
-/

namespace PlaneSketch

/-- Why a term of a transformation text is rejected. -/
inductive Rejection where
  | argumentCount
  | notANumber
  | unknownOperation
  deriving DecidableEq

def Rejection.message : Rejection → String
  | argumentCount => "incorrect argument count"
  | notANumber => "not a number"
  | unknownOperation => "unknown operation"

inductive ForeignKind where
  | integer
  | real
  | boolean
  | missing
  | record
  deriving DecidableEq

def ForeignKind.word : ForeignKind → String
  | integer => "int"
  | real => "float"
  | boolean => "bool"
  | missing => "NoneType"
  | record => "dict"

/-- The components of a colour before and after its conversion that are checked against a range. -/
inductive Component where
  | red
  | green
  | blue
  | saturation
  | lightness
  deriving DecidableEq

def Component.name : Component → String
  | red => "Red"
  | green => "Green"
  | blue => "Blue"
  | saturation => "Saturation"
  | lightness => "Lightness"

/-- What the transform of a path is needed for. -/
inductive TransformUse where
  | listing
  | applying
  | composing
  deriving DecidableEq

inductive Fault where
  -- numbers
  | invalidNumber (text : String)
  | notFourNumbers (text : String)
  | numberTooLarge
  | alphaTooLarge
  | widthTooLarge
  | beyondWord
  | ceilingOfNaN
  | ceilingOfInfinity
  -- transformation texts
  | rejectedTerm (why : Rejection) (term : String)
  | readOnly (field : String)
  -- matrices and points
  | matrixShape (dimensions : List Nat)
  | lastRow (row : Triple Binary64)
  | unevenNesting
  | oddCoordinateCount
  | notAPoint
  | notATransform
  | tooManyCoordinates
  | tooFewCoordinates (count : Nat)
  | missingCoordinate
  | missingTransform (use : TransformUse)
  -- styles
  | unknownStyleKind (kind : String)
  | unknownStyle (name : String)
  -- colours
  | notAColor (kind : ForeignKind)
  | unknownColor (name : String)
  | malformedCode (code : String)
  | componentAboveOne (components : List Number)
  | componentCount (components : List Number)
  | componentOutOfRange (component : Component) (value : Binary64)
  | convertedOutOfRange (component : Component)
  | cancellingComponents
  -- canvases and pictures
  | noSurface (width height : Nat)
  | negativePadding (padding : Number)
  | lineWidthNotPositive (width : Number)
  | resolutionCount
  | resolutionNotPositive (resolution : List Number)
  | unknownFormats (names : List String)
  | outsideAxis (index : Int) (axis size : Nat)
  deriving DecidableEq

/-- What a caller tells faults apart by. -/
inductive FaultKind where
  | value
  | form
  | overflow
  | assertion
  | key
  | position
  | attribute
  | division
  | conversion
  | memory
  | rejectedTerm
  | frozenField
  deriving DecidableEq

namespace Fault

def kind : Fault → FaultKind
  | numberTooLarge | ceilingOfInfinity => .overflow
  | notAPoint | notATransform | alphaTooLarge | beyondWord | noSurface .. => .form
  | widthTooLarge => .conversion
  | rejectedTerm .. => .rejectedTerm
  | readOnly _ => .frozenField
  | missingCoordinate | outsideAxis .. => .position
  | unknownStyleKind _ | componentAboveOne _ | componentCount _ | resolutionCount | resolutionNotPositive _ =>
    .assertion
  | unknownStyle _ => .key
  | malformedCode _ | missingTransform _ => .attribute
  | cancellingComponents => .division
  | invalidNumber _ | notFourNumbers _ | ceilingOfNaN | matrixShape _ | lastRow _ | unevenNesting |
    oddCoordinateCount | tooManyCoordinates | tooFewCoordinates _ | notAColor _ | unknownColor _ |
    componentOutOfRange .. | convertedOutOfRange _ | negativePadding _ | lineWidthNotPositive _ | unknownFormats _ =>
    .value

def listText (ns : List Number) : String := bracketed (ns.map Number.text)

def dimensionsText : List Nat → String
  | [n] => "(" ++ toString n ++ ",)"
  | ns => "(" ++ ", ".intercalate (ns.map toString) ++ ")"

/-- The wording of a fault, if it has one; `rowText` is how the library of arrays shows a row. -/
def message? (rowText : Triple Binary64 → String) : Fault → Option String
  | invalidNumber s => some ("Invalid number: " ++ Text.quoted s)
  | notFourNumbers s => some ("Rectangle needs exactly four numbers: " ++ Text.quoted s)
  | numberTooLarge => none
  | alphaTooLarge => none
  | widthTooLarge => none
  | beyondWord => none
  | ceilingOfNaN => some "cannot convert float NaN to integer"
  | ceilingOfInfinity => none
  | rejectedTerm why term => some (why.message ++ " in term " ++ Text.quoted term)
  | readOnly field => some ("cannot assign to field " ++ Text.quoted field)
  | matrixShape ns => some ("Affine matrix must be 3x3, got shape " ++ dimensionsText ns)
  | lastRow row => some ("Last row of an affine matrix must be (0, 0, 1): " ++ rowText row)
  | unevenNesting => none
  | oddCoordinateCount => none
  | notAPoint => none
  | notATransform => none
  | tooManyCoordinates => some "too many values to unpack (expected 2)"
  | tooFewCoordinates n => some ("not enough values to unpack (expected 2, got " ++ toString n ++ ")")
  | missingCoordinate => some "list index out of range"
  | missingTransform _ => none
  | unknownStyleKind kind => some ("Wrong convert type " ++ kind ++ "!")
  | unknownStyle name => some name
  | notAColor kind => some ("Unsupported color type: " ++ kind.word)
  | unknownColor name => some ("Unknown color: " ++ name)
  | malformedCode code => some (Text.quoted code ++ " is not in web format. Need 3 or 6 hex digit.")
  | componentAboveOne cs => some ("All color values must be lower or equal to 1.0: " ++ listText cs)
  | componentCount cs => some ("Color must have three or four parameters: " ++ listText cs)
  | componentOutOfRange c v => some (c.name ++ " must be between 0 and 1. You provided " ++ v.text ++ ".")
  | convertedOutOfRange c => some (c.name ++ " must be between 0 and 1.")
  | cancellingComponents => some "float division by zero"
  | noSurface _ _ => none
  | negativePadding n => some ("Padding must not be negative: " ++ n.text)
  | lineWidthNotPositive n => some ("Line width must be positive: " ++ n.text)
  | resolutionCount => some "Resolution must contain exactly two values"
  | resolutionNotPositive ns => some ("Resolution must be positive: " ++ listText ns)
  | unknownFormats names => some ("Unknown output format(s): " ++ ", ".intercalate names)
  | outsideAxis i axis n =>
    some ("index " ++ toString i ++ " is out of bounds for axis " ++ toString axis ++ " with size " ++ toString n)

end Fault

end PlaneSketch
