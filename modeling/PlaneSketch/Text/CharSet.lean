/-!
# Sets of characters

A set of characters is written as the ascending list of its edges: the first code point in, the first one
out again, and so on. `CharSet.holds_cons` is the rule that reads such a list from its front.
-/

namespace PlaneSketch.Text

/-- The edges of a set of code points, ascending: in, out, in, out. -/
structure CharSet where
  edges : List Nat

namespace CharSet

/-- Whether the number of edges at or below `n` is odd. -/
def holds : List Nat → Nat → Bool
  | [], _ => false
  | e :: es, n => if n < e then false else !holds es n

def contains (s : CharSet) (c : Char) : Bool := holds s.edges c.toNat

theorem holds_cons (e : Nat) (es : List Nat) (n : Nat) :
    holds (e :: es) n = (decide (e ≤ n) && !holds es n) := by
  by_cases h : n < e
  · have : ¬ e ≤ n := by omega
    simp [holds, h, this]
  · have : e ≤ n := by omega
    simp [holds, h, this]

end CharSet

end PlaneSketch.Text
