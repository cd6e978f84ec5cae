/-!
# Splitting text

`split` cuts a text at every occurrence of a separator; the pieces between separators are kept also when they
are empty, so there is always one piece more than there are separators. `join` puts pieces together again.
-/

namespace PlaneSketch.Text

/-- The pieces of a text between the occurrences of a separator. -/
def split (separator : Char) : List Char → List (List Char)
  | [] => [[]]
  | c :: s =>
    if c = separator then [] :: split separator s
    else
      match split separator s with
      | [] => [[c]]
      | piece :: pieces => (c :: piece) :: pieces

/-- The pieces one after another with a separator between them. -/
def join (separator : Char) : List (List Char) → List Char
  | [] => []
  | [piece] => piece
  | piece :: pieces => piece ++ separator :: join separator pieces

theorem split_ne_nil (separator : Char) (s : List Char) : split separator s ≠ [] := by
  cases s with
  | nil => simp [split]
  | cons c s =>
    unfold split
    split
    · simp
    · split <;> simp

theorem join_split (separator : Char) (s : List Char) : join separator (split separator s) = s := by
  induction s with
  | nil => rfl
  | cons c s ih =>
    unfold split
    have hne := split_ne_nil separator s
    by_cases hc : c = separator
    · rw [if_pos hc]
      cases h : split separator s with
      | nil => exact absurd h hne
      | cons piece pieces => rw [h] at ih; simp [join, ih, hc]
    · rw [if_neg hc]
      cases h : split separator s with
      | nil => exact absurd h hne
      | cons piece pieces =>
        rw [h] at ih
        cases pieces with
        | nil => simpa [join] using ih
        | cons p ps => simpa [join] using ih

end PlaneSketch.Text
