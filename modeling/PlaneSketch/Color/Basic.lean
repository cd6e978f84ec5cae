import PlaneSketch.Color.Hsl
import PlaneSketch.Color.Names
import PlaneSketch.Color.Spec
import PlaneSketch.Number.Checked
import PlaneSketch.Text.LowerCase

/-!
# Colours

A colour has red, green, blue and alpha in single precision. `ColorSpec.color` turns what was given into a
colour: a name in any letter case, a code of three or six hexadecimal digits behind `#`, or three or four
components of at most one. The empty text stands for black.
-/

namespace PlaneSketch

structure Color where
  red : Binary64
  green : Binary64
  blue : Binary64
  alpha : Binary64
  deriving DecidableEq

namespace Color

def channels (c : Color) : List Binary64 := [c.red, c.green, c.blue, c.alpha]

def ofRgb (c : Rgb) (alpha : Binary64) : Color := ⟨c.red.toSingle, c.green.toSingle, c.blue.toSingle, alpha⟩

/-- A value brought into the range from zero to one. -/
def clampUnit (x : Binary64) : Binary64 := if 0 < x then (if x < 1 then x else 1) else 0

/-- A component as a byte: 255 times the value, rounded in single precision steps. -/
def byteOf (x : Binary64) : Nat :=
  let scaled := ((clampUnit x * 255).toSingle + .ofFraction 1 2).toSingle
  (scaled.floor?.getD 0).toNat

def ofByte (n : Nat) : Binary64 := (.ofNat n * (Binary64.ofFraction 1 255).toSingle : Binary64).toSingle

/-- Whether nothing shows through or of the colour once its alpha is held in a byte. -/
def isTransparent (c : Color) : Bool := byteOf c.alpha == 0

/-- The components as bytes; a transparent colour keeps none of them. -/
def bytes (c : Color) : List Nat := if c.isTransparent then [0, 0, 0, 0] else c.channels.map byteOf

/-- The colour that is left when every component is held in a byte. -/
def quantized (c : Color) : Color :=
  ⟨ofByte (byteOf c.red), ofByte (byteOf c.green), ofByte (byteOf c.blue), ofByte (byteOf c.alpha)⟩

end Color

namespace ByteColor

def toRgb (c : ByteColor) : Rgb := ⟨.ofFraction c.red 255, .ofFraction c.green 255, .ofFraction c.blue 255⟩

end ByteColor

namespace ColorSpec

def hexValue? (c : Char) : Option Nat :=
  let n := c.toNat
  if 48 ≤ n ∧ n ≤ 57 then some (n - 48)
  else if 65 ≤ n ∧ n ≤ 70 then some (n - 55)
  else if 97 ≤ n ∧ n ≤ 102 then some (n - 87)
  else none

def hexValues? (s : List Char) : Option (List Nat) := s.mapM hexValue?

def ofHexDigits? : List Nat → Option ByteColor
  | [r, g, b] => some ⟨17 * r, 17 * g, 17 * b⟩
  | [r, r', g, g', b, b'] => some ⟨16 * r + r', 16 * g + g', 16 * b + b'⟩
  | _ => none

def ofCode? (digits : List Char) : Option ByteColor := (hexValues? digits).bind ofHexDigits?

/-- The colour with a given name, in any letter case. -/
def ofName? (name : List Char) : Option ByteColor := namedColors.lookup (String.ofList (Text.lower name))

/-- The colour that a text names. A code that a line break follows is well formed but names no colour. -/
def byteColor (text : String) : Except Fault ByteColor :=
  match text.toList with
  | [] => .ok ⟨0, 0, 0⟩
  | '#' :: digits =>
    match ofCode? digits with
    | some c => .ok c
    | none =>
      if digits.getLast? = some '\n' ∧ (ofCode? digits.dropLast).isSome then .error (.unknownColor text)
      else .error (.malformedCode text)
  | name =>
    match ofName? name with
    | some c => .ok c
    | none => .error (.unknownColor text)

/-- The colour of three components and an alpha. -/
def ofRgbAlpha (rgb : Number × Number × Number) (alpha : Number) : Except Fault Color := do
  let r ← rgb.1.toBinary64
  let g ← rgb.2.1.toBinary64
  let b ← rgb.2.2.toBinary64
  let c ← (Rgb.mk r g b).normalized
  .ok (Color.ofRgb c (← alpha.toBinary64Or .alphaTooLarge).toSingle)

/-- The colour of a list of components, the fourth one being alpha. -/
def ofComponents (cs : List Number) : Except Fault Color :=
  if !cs.all Number.isAtMostOne then .error (.componentAboveOne cs)
  else
    match cs with
    | [r, g, b] => ofRgbAlpha (r, g, b) (.int 1)
    | [r, g, b, a] => ofRgbAlpha (r, g, b) a
    | _ => .error (.componentCount cs)

def color : ColorSpec → Except Fault Color
  | named text => do
    let c ← (← byteColor text).toRgb.normalized
    .ok (Color.ofRgb c 1)
  | components cs => ofComponents cs
  | foreign kind _ => .error (.notAColor kind)

end ColorSpec

end PlaneSketch
