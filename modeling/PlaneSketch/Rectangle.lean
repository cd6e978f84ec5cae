import PlaneSketch.Numeral
import PlaneSketch.Text.Blank
import PlaneSketch.Transform.Basic
import PlaneSketch.Fault

/-!
# Rectangle texts

A rectangle is given by two opposite corners, written as four numerals of finite value between blanks.
-/

namespace PlaneSketch

structure Rectangle (K : Type) where
  first : Point K
  second : Point K
  deriving DecidableEq

namespace Rectangle

/-- The outline, starting and ending at the first corner. -/
def outline {K : Type} (r : Rectangle K) : List (Point K) :=
  [r.first, ⟨r.first.x, r.second.y⟩, r.second, ⟨r.second.x, r.first.y⟩, r.first]

def ofWords? : List (List Char) → Option (Rectangle Binary64)
  | [s1, s2, s3, s4] =>
    match Numeral.finite? s1, Numeral.finite? s2, Numeral.finite? s3, Numeral.finite? s4 with
    | some x1, some y1, some x2, some y2 => some ⟨⟨x1, y1⟩, ⟨x2, y2⟩⟩
    | _, _, _, _ => none
  | _ => none

def read (s : String) : Except Fault (Rectangle Binary64) :=
  match ofWords? (Text.words s.toList) with
  | some r => .ok r
  | none => .error (.notFourNumbers s)

end Rectangle

/-- The value of a text that is a numeral of finite value. -/
def Numeral.readNumber (s : String) : Except Fault Binary64 :=
  match Numeral.finite? s.toList with
  | some x => .ok x
  | none => .error (.invalidNumber s)

end PlaneSketch
