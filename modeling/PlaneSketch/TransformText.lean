import PlaneSketch.Numeral
import PlaneSketch.Operation
import PlaneSketch.Text.Blank
import PlaneSketch.Text.Split

/-!
# Transformation texts

A transformation text is a list of terms separated by `*`. A term is one of the letters `S`, `T` and `R`
followed by numerals separated by commas, as many as the operation takes; blanks are dropped everywhere and
parentheses are dropped behind the letter. The first term that is not of this form is reported, with the
reason. `TransformText.write` writes operations so that reading gives them back.
-/

namespace PlaneSketch

/-- A term that was rejected, without its blanks, and the reason. -/
structure RejectedTerm where
  why : Rejection
  term : String
  deriving DecidableEq

def RejectedTerm.fault (r : RejectedTerm) : Fault := .rejectedTerm r.why r.term

namespace TransformText

open Text

def times : Char := '*'

def comma : Char := ','

def isParenthesis (c : Char) : Bool := c = '(' || c = ')'

/-- The numerals behind the letter of a term. -/
def arguments (payload : List Char) : List (List Char) :=
  split comma (payload.filter fun c => !isParenthesis c)

/-- The values of arguments, if each of them is a numeral of finite value. -/
def values? : List (List Char) → Option (List Binary64)
  | [] => some []
  | s :: ss =>
    match Numeral.finite? s, values? ss with
    | some x, some xs => some (x :: xs)
    | _, _ => none

/-- The letters of the operations with the number of their arguments. -/
def arity? : Char → Option Nat
  | 'S' => some 2
  | 'T' => some 2
  | 'R' => some 1
  | _ => none

def operation? : Char → List Binary64 → Option (Operation Binary64)
  | 'S', [sx, sy] => some (.scale sx sy)
  | 'T', [tx, ty] => some (.translate tx ty)
  | 'R', [degrees] => some (.rotate degrees)
  | _, _ => none

/-- The operation that a term without blanks stands for, or why there is none. -/
def readTerm : List Char → Except Rejection (Operation Binary64)
  | [] => .error .unknownOperation
  | letter :: payload =>
    match arity? letter with
    | none => .error .unknownOperation
    | some n =>
      if (arguments payload).length ≠ n then .error .argumentCount
      else
        match (values? (arguments payload)).bind (operation? letter) with
        | some op => .ok op
        | none => .error .notANumber

def readTerms : List (List Char) → Except RejectedTerm (List (Operation Binary64))
  | [] => .ok []
  | term :: terms =>
    match readTerm term with
    | .error why => .error ⟨why, String.ofList term⟩
    | .ok op => (readTerms terms).map (op :: ·)

/-- The terms of a text: none if it is blank, else the pieces between the separators. -/
def terms (s : List Char) : List (List Char) :=
  let s := withoutBlanks s
  if s.isEmpty then [] else split times s

def operations (s : String) : Except RejectedTerm (List (Operation Binary64)) := readTerms (terms s.toList)

/-- What a transformation text stands for: a rejected term, or the outcome of composing its operations. -/
def read (s : String) : Except RejectedTerm (Except Fault (Transform Binary64)) :=
  (operations s).map Operation.composed

/-- The transform of a transformation text, a rejected term being a fault like any other. -/
def transform (s : String) : Except Fault (Transform Binary64) :=
  match read s with
  | .error r => .error r.fault
  | .ok t => t

/-! ### Kept texts -/

/-- A transformation text that is kept as it was given. -/
structure Source where
  text : String := ""

namespace Source

variable (s : Source)

def operations : Except RejectedTerm (List (Operation Binary64)) := TransformText.operations s.text

def read : Except RejectedTerm (Except Fault (Transform Binary64)) := TransformText.read s.text

/-- The text cannot be exchanged for another one. -/
def assign (_ : Source) (_ : String) : Except Fault Source := .error (.readOnly "text")

end Source

/-! ### Writing -/

def writeTerm (letter : Char) (args : List Binary64) : List Char :=
  letter :: '(' :: (join comma (args.map fun x => x.text.toList) ++ [')'])

def writeOperation : Operation Binary64 → List Char
  | .scale sx sy => writeTerm 'S' [sx, sy]
  | .translate tx ty => writeTerm 'T' [tx, ty]
  | .rotate degrees => writeTerm 'R' [degrees]

/-- The text of operations, their numbers in shortest form. -/
def write (ops : List (Operation Binary64)) : String := String.ofList (join times (ops.map writeOperation))

end TransformText

end PlaneSketch
