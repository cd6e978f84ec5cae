import PlaneSketch.Text.Printable

/-!
# Quoted text

A quoted text stands between single quotes, or between double quotes if it holds a single quote and no
double one. Line breaks, tabs, the backslash and the enclosing quote are written with a backslash; any
other character that is not printable is written by its code point in hexadecimal.
-/

namespace PlaneSketch.Text

def singleQuote : Char := Char.ofNat 39

def doubleQuote : Char := Char.ofNat 34

/-- The last `width` hexadecimal digits of `n`. -/
def hexDigits (width n : Nat) : List Char :=
  match width with
  | 0 => []
  | width + 1 => hexDigits width (n / 16) ++ [Nat.digitChar (n % 16)]

/-- The written form of a character between quotes of the given kind. -/
def escaped (quote c : Char) : List Char :=
  if c = quote || c = Char.ofNat 92 then [Char.ofNat 92, c]
  else if c = '\n' then [Char.ofNat 92, 'n']
  else if c = '\r' then [Char.ofNat 92, 'r']
  else if c = '\t' then [Char.ofNat 92, 't']
  else if isPrintable c then [c]
  else if c.toNat < 0x100 then Char.ofNat 92 :: 'x' :: hexDigits 2 c.toNat
  else if c.toNat < 0x10000 then Char.ofNat 92 :: 'u' :: hexDigits 4 c.toNat
  else Char.ofNat 92 :: 'U' :: hexDigits 8 c.toNat

def quoteFor (s : List Char) : Char :=
  if s.contains singleQuote && !s.contains doubleQuote then doubleQuote else singleQuote

def quoted (s : String) : String :=
  let quote := quoteFor s.toList
  String.ofList (quote :: s.toList.flatMap (escaped quote) ++ [quote])

end PlaneSketch.Text
