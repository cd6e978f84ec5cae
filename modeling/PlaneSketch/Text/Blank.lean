import PlaneSketch.Text.CharSet

/-!
# Blank characters

The blank characters are the Unicode white space together with the four information separators U+001C to
U+001F. The zero-width characters are not among them.
-/

namespace PlaneSketch.Text

def blanks : CharSet where
  edges := [
    0x9, 0xE, 0x1C, 0x21, 0x85, 0x86, 0xA0, 0xA1, 0x1680, 0x1681, 0x2000, 0x200B, 0x2028, 0x202A, 0x202F,
    0x2030, 0x205F, 0x2060, 0x3000, 0x3001]

def isBlank (c : Char) : Bool := blanks.contains c

/-- The maximal runs of characters that are not blank, in order. -/
def words (s : List Char) : List (List Char) :=
  go [] s
where
  /-- The words of `s` when `word`, read backwards, stands directly before it. -/
  go (word : List Char) : List Char → List (List Char)
    | [] => if word.isEmpty then [] else [word.reverse]
    | c :: s =>
      if isBlank c then (if word.isEmpty then go [] s else word.reverse :: go [] s) else go (c :: word) s

/-- The characters that are not blank. -/
def withoutBlanks (s : List Char) : List Char := s.filter fun c => !isBlank c

end PlaneSketch.Text
