import PlaneSketch.Fault
import PlaneSketch.Binary64.Arith

/-!
# Hue, saturation and lightness

Colours are held as hue, saturation and lightness in double precision. Red, green and blue are turned into
that form and back with every rounding of the steps below, so a component may come back changed in its last
places. Components may leave the range from zero to one by half a millionth.
-/

namespace PlaneSketch

structure Rgb where
  red : Binary64
  green : Binary64
  blue : Binary64
  deriving DecidableEq

structure Hsl where
  hue : Binary64
  saturation : Binary64
  lightness : Binary64
  deriving DecidableEq

namespace Rgb

open Binary64 (ofFraction)

/-- How far a component may lie outside the range from zero to one. -/
def tolerance : Binary64 := ofFraction 5 10000000

def inRange (x : Binary64) : Bool := decide (0 - tolerance ≤ x) && decide (x ≤ 1 + tolerance)

/-- The smaller of two values; the first one if neither is. -/
def smaller (x y : Binary64) : Binary64 := if y < x then y else x

/-- The larger of two values; the first one if neither is. -/
def larger (x y : Binary64) : Binary64 := if x < y then y else x

def checkRange (c : Rgb) : Except Fault Unit :=
  if !inRange c.red then .error (.componentOutOfRange .red c.red)
  else if !inRange c.green then .error (.componentOutOfRange .green c.green)
  else if !inRange c.blue then .error (.componentOutOfRange .blue c.blue)
  else .ok ()

/-- The hue of a colour whose largest component is `hi` and whose spread is `diff`. -/
def hue (c : Rgb) (hi diff : Binary64) : Binary64 :=
  let d (x : Binary64) := ((hi - x) / 6 + diff / 2) / diff
  let h :=
    if c.red == hi then d c.blue - d c.green
    else if c.green == hi then ofFraction 1 3 + d c.red - d c.blue
    else ofFraction 2 3 + d c.green - d c.red
  let h := if h < 0 then h + 1 else h
  if 1 < h then h - 1 else h

def toHsl (c : Rgb) : Except Fault Hsl := do
  c.checkRange
  let lo := smaller (smaller c.red c.green) c.blue
  let hi := larger (larger c.red c.green) c.blue
  let diff := hi - lo
  let sum := lo + hi
  let l := sum / 2
  if diff < tolerance then .ok ⟨0, 0, l⟩
  else if l < ofFraction 1 2 then
    if sum == 0 then .error .cancellingComponents else .ok ⟨c.hue hi diff, diff / sum, l⟩
  else .ok ⟨c.hue hi diff, diff / (2 - sum), l⟩

end Rgb

namespace Hsl

open Binary64 (ofFraction)

/-- An angle of at most a turn, brought back between nought and one whole turn. -/
def wrap (t : Binary64) : Binary64 :=
  let t := if t < 0 then t + 1 else t
  if 1 < t then t - 1 else t

/-- A component at an angle, rising and falling between `v1` and `v2`. -/
def component (v1 v2 t : Binary64) : Binary64 :=
  let t := wrap t
  if 6 * t < 1 then v1 + (v2 - v1) * 6 * t
  else if 2 * t < 1 then v2
  else if 3 * t < 2 then v1 + (v2 - v1) * (ofFraction 2 3 - t) * 6
  else v1

def toRgb (c : Hsl) : Except Fault Rgb :=
  let ⟨h, s, l⟩ := c
  if !Rgb.inRange s then .error (.convertedOutOfRange .saturation)
  else if !Rgb.inRange l then .error (.convertedOutOfRange .lightness)
  else if s == 0 then .ok ⟨l, l, l⟩
  else
    let v2 := if l < ofFraction 1 2 then l * (1 + s) else l + s - s * l
    let v1 := 2 * l - v2
    let third := ofFraction 1 3
    .ok ⟨component v1 v2 (h + third), component v1 v2 h, component v1 v2 (h - third)⟩

end Hsl

/-- A colour through hue, saturation and lightness and back. -/
def Rgb.normalized (c : Rgb) : Except Fault Rgb := do (← c.toHsl).toRgb

end PlaneSketch
