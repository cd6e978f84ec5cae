import PlaneSketch.FormatSpec.Basic

/-!
# Laying out fields

A field is a text brought to a width. In a number the sign and a base mark stand first, then the digits in
groups, then whatever follows them; the fill goes to the left, to the right, to both sides, or in front of
the digits. Zeros that fill in front of the digits are grouped like digits. A width of `2 ^ 31` or more is
beyond every field.
-/

namespace PlaneSketch

/-- Digits, last one first, in groups of `size`, with zeros until `room` characters are taken. -/
def Grouping.apply (g : Grouping) : Nat → List Char → Int → List Char
  | 0, ds, _ => ds
  | fuel + 1, ds, room =>
    let n := min g.size (max (max ds.length room.toNat) 1)
    let here := ds.take n ++ List.replicate (n - ds.length) '0'
    let rest := ds.drop n
    let room := room - n
    if rest.isEmpty ∧ room ≤ 0 then here else here ++ g.separator :: g.apply fuel rest (room - 1)

namespace FormatSpec

variable (spec : FormatSpec)

/-- The digits of a number, grouped, with zeros until `room` characters are taken. -/
def groupDigits (digits : List Char) (room : Int) : List Char :=
  match spec.grouping with
  | none => List.replicate (room.toNat - digits.length) '0' ++ digits
  | some g => (g.apply (digits.length + room.toNat + 1) digits.reverse room).reverse

/-- The width as an integer; a width that is not given is below every length. -/
def widthOrBelow : Int :=
  match spec.width with
  | some n => n
  | none => -1

def signText (negative : Bool) : List Char :=
  if negative then ['-']
  else
    match spec.sign with
    | some .plus => ['+']
    | some .space => [' ']
    | _ => []

/-- A number in its field: sign, base mark, digits and what follows them. -/
def layNumber (negative : Bool) (mark digits rest : List Char) : List Char :=
  let front := spec.signText negative ++ mark
  let other : Int := front.length + rest.length
  let room := if spec.fill = '0' ∧ spec.alignment = .inner then spec.widthOrBelow - other else 0
  let body := if digits.isEmpty then [] else spec.groupDigits digits room
  let padding := (spec.widthOrBelow - (other + body.length)).toNat
  let fill (n : Nat) := List.replicate n spec.fill
  match spec.alignment with
  | .left => front ++ body ++ rest ++ fill padding
  | .right => fill padding ++ front ++ body ++ rest
  | .centre => fill (padding / 2) ++ front ++ body ++ rest ++ fill (padding - padding / 2)
  | .inner => front ++ fill padding ++ body ++ rest

def layText (s : List Char) : List Char := { spec with sign := none }.layNumber false [] [] s

/-- The least width that is beyond every field. -/
def widthLimit : Nat := Nat.pow 2 31

def fits : Bool := spec.width.all fun n => decide (n < widthLimit)

/-- A number in its field, if there can be such a field. -/
def placeNumber (negative : Bool) (mark digits rest : List Char) : Except FormatFault (List Char) :=
  if spec.fits then .ok (spec.layNumber negative mark digits rest) else .error .fieldTooWide

def placeText (s : List Char) : Except FormatFault (List Char) :=
  if spec.fits then .ok (spec.layText s) else .error .fieldTooWide

end FormatSpec

end PlaneSketch
