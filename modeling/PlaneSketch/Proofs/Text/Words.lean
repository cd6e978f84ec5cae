import Mathlib.Logic.Relation
import PlaneSketch.Text.Blank

/-!
# The words of a text

`WordsOf s ws` takes a text apart into words and the gaps around them: a gap is a row of blanks, a word a row of other
characters that is not empty and ends only at a blank or at the end of the text. Every text falls apart in exactly one
way, so blanks may be exchanged for others wherever some are left.

* `isBlank_iff`: the blanks one by one.
* `words_eq_iff`: `words` finds the words of a text, and no others.
* `words_append_gap`: the words of two texts with a gap between them.
* `words_eq_of_respacings`: texts that differ only in their gaps have the same words.
-/

namespace PlaneSketch.Text

/-! ### Blanks -/

/-- Tab to carriage return, the information separators, and the spaces and separators of Unicode. -/
def whiteSpace : List Nat := [
  0x9, 0xA, 0xB, 0xC, 0xD, 0x1C, 0x1D, 0x1E, 0x1F, 0x20, 0x85, 0xA0, 0x1680, 0x2000, 0x2001, 0x2002, 0x2003, 0x2004,
  0x2005, 0x2006, 0x2007, 0x2008, 0x2009, 0x200A, 0x2028, 0x2029, 0x202F, 0x205F, 0x3000]

theorem isBlank_iff (c : Char) : isBlank c = true ↔ c.toNat ∈ whiteSpace := by
  have hnone : CharSet.holds [] c.toNat = false := rfl
  simp only [isBlank, CharSet.contains, blanks, CharSet.holds_cons, hnone, Bool.and_eq_true, Bool.not_eq_true',
    Bool.and_eq_false_iff, decide_eq_true_eq, decide_eq_false_iff_not, Bool.not_eq_false', Bool.false_eq_true, or_false,
    whiteSpace, List.mem_cons, List.not_mem_nil]
  omega

/-! ### Gaps and words -/

/-- Nothing but blanks. -/
def IsGap (s : List Char) : Prop := ∀ c ∈ s, isBlank c = true

instance (s : List Char) : Decidable (IsGap s) := List.decidableBAll (fun c => isBlank c = true) s

/-- At least one character, and no blank. -/
def IsWord (s : List Char) : Prop := s ≠ [] ∧ ∀ c ∈ s, isBlank c = false

/-- If anything, a blank stands at the front. -/
def BlankHead (s : List Char) : Prop := ∀ c ∈ s.head?, isBlank c = true

/-- The maximal runs of characters other than blanks in `s` are `ws`. -/
inductive WordsOf : List Char → List (List Char) → Prop
  | gap {gap} : IsGap gap → WordsOf gap []
  | word {gap w rest ws} : IsGap gap → IsWord w → BlankHead rest → WordsOf rest ws →
      WordsOf (gap ++ (w ++ rest)) (w :: ws)

/-! ### Finding the words -/

theorem words_cons_blank {c : Char} (hc : isBlank c = true) (s : List Char) : words (c :: s) = words s := by
  rw [words, words.go, if_pos hc]
  rfl

theorem words_gap_append {gap : List Char} (hgap : IsGap gap) (s : List Char) : words (gap ++ s) = words s := by
  induction gap with
  | nil => rfl
  | cons c gap ih =>
    obtain ⟨hc, hgap⟩ := List.forall_mem_cons.mp hgap
    rw [List.cons_append, words_cons_blank hc, ih hgap]

/-- The characters of a word are collected up to its end. -/
theorem go_append {w : List Char} (hw : ∀ c ∈ w, isBlank c = false) (front rest : List Char) :
    words.go front (w ++ rest) = words.go (w.reverse ++ front) rest := by
  induction w generalizing front with
  | nil => rfl
  | cons c w ih =>
    obtain ⟨hc, hw⟩ := List.forall_mem_cons.mp hw
    rw [List.cons_append, words.go, if_neg (by simp [hc]), ih hw, List.reverse_cons, List.append_assoc]
    rfl

theorem go_of_blankHead {front : List Char} (hfront : front ≠ []) {rest : List Char} (hrest : BlankHead rest) :
    words.go front rest = front.reverse :: words rest := by
  cases rest with
  | nil => simp [words, words.go, hfront]
  | cons c rest =>
    have hc : isBlank c = true := hrest c (by simp)
    rw [words_cons_blank hc, words.go, if_pos hc, if_neg (by simpa using hfront)]
    rfl

theorem WordsOf.words_eq {s : List Char} {ws : List (List Char)} (h : WordsOf s ws) : words s = ws := by
  induction h with
  | @gap gap hgap =>
    rw [← List.append_nil gap, words_gap_append hgap]
    rfl
  | @word gap w rest ws hgap hw hrest _ ih =>
    have hreverse : w.reverse ++ [] ≠ [] := by simpa using hw.1
    rw [words_gap_append hgap, words, go_append hw.2, go_of_blankHead hreverse hrest, ih]
    simp

/-- One more character in front belongs to a gap, to the first word, or is a word of its own. -/
theorem exists_wordsOf (s : List Char) : ∃ ws, WordsOf s ws := by
  induction s with
  | nil => exact ⟨[], .gap (by simp [IsGap])⟩
  | cons c s ih =>
    obtain ⟨ws, h⟩ := ih
    have hempty : IsGap [] := by simp [IsGap]
    cases hc : isBlank c with
    | true =>
      cases h with
      | gap hgap => exact ⟨[], .gap (List.forall_mem_cons.mpr ⟨hc, hgap⟩)⟩
      | word hgap hw hrest htail => exact ⟨_, .word (List.forall_mem_cons.mpr ⟨hc, hgap⟩) hw hrest htail⟩
    | false =>
      have halone : IsWord [c] := ⟨by simp, by simp [hc]⟩
      by_cases hhead : BlankHead s
      · exact ⟨_, .word hempty halone hhead h⟩
      · cases h with
        | gap hgap => exact absurd (fun k hk => hgap k (List.mem_of_mem_head? hk)) hhead
        | @word gap w rest ws hgap hw hrest htail =>
          cases gap with
          | nil => exact ⟨_, .word (w := c :: w) hempty ⟨by simp, List.forall_mem_cons.mpr ⟨hc, hw.2⟩⟩ hrest htail⟩
          | cons k gap =>
            have hk : BlankHead (k :: gap ++ (w ++ rest)) := by
              simp only [BlankHead, List.cons_append, List.head?_cons, Option.mem_def, Option.some.injEq, forall_eq']
              exact hgap k (by simp)
            exact absurd hk hhead

/-- **The words of a text** are its maximal runs of characters other than blanks. -/
theorem words_eq_iff {s : List Char} {ws : List (List Char)} : words s = ws ↔ WordsOf s ws := by
  constructor
  · rintro rfl
    obtain ⟨ws, h⟩ := exists_wordsOf s
    rwa [h.words_eq]
  · exact WordsOf.words_eq

/-! ### Gaps -/

theorem WordsOf.gap_append {gap s : List Char} {ws : List (List Char)} (hgap : IsGap gap) (h : WordsOf s ws) :
    WordsOf (gap ++ s) ws := by
  rw [← words_eq_iff, words_gap_append hgap, h.words_eq]

/-- The words of two texts with a gap between them are those of the one and of the other. -/
theorem WordsOf.append {s t gap : List Char} {ws vs : List (List Char)} (hs : WordsOf s ws) (hgap : IsGap gap)
    (hne : gap ≠ []) (ht : WordsOf t vs) : WordsOf (s ++ (gap ++ t)) (ws ++ vs) := by
  induction hs with
  | gap hfirst => exact (ht.gap_append hgap).gap_append hfirst
  | @word first w rest ws hfirst hw hrest _ ih =>
    have hhead : BlankHead (rest ++ (gap ++ t)) := by
      cases rest with
      | nil =>
        obtain ⟨c, gap, rfl⟩ := List.exists_cons_of_ne_nil hne
        simpa [BlankHead] using hgap c (by simp)
      | cons c rest => simpa [BlankHead] using hrest
    rw [List.append_assoc, List.append_assoc]
    exact .word hfirst hw hhead ih

theorem words_append_gap {gap : List Char} (hgap : IsGap gap) (hne : gap ≠ []) (s t : List Char) :
    words (s ++ (gap ++ t)) = words s ++ words t := by
  rw [words_eq_iff]
  exact (words_eq_iff.mp rfl).append hgap hne (words_eq_iff.mp rfl)

/-- One gap is exchanged for another. At either end of a text, gaps may be empty. -/
inductive Respacing : List Char → List Char → Prop
  | leading {gap gap' s} : IsGap gap → IsGap gap' → Respacing (gap ++ s) (gap' ++ s)
  | trailing {gap gap' s} : IsGap gap → IsGap gap' → Respacing (s ++ gap) (s ++ gap')
  | between {gap gap' s t} : IsGap gap → IsGap gap' → gap ≠ [] → gap' ≠ [] →
      Respacing (s ++ (gap ++ t)) (s ++ (gap' ++ t))

theorem words_append_of_isGap {gap : List Char} (hgap : IsGap gap) (s : List Char) : words (s ++ gap) = words s := by
  by_cases hne : gap = []
  · rw [hne, List.append_nil]
  · have hnone : words [] = [] := rfl
    have happend := words_append_gap hgap hne s []
    rwa [hnone, List.append_nil, List.append_nil] at happend

theorem words_eq_of_respacing {s s' : List Char} (h : Respacing s s') : words s = words s' := by
  cases h with
  | leading hgap hgap' => rw [words_gap_append hgap, words_gap_append hgap']
  | trailing hgap hgap' => rw [words_append_of_isGap hgap, words_append_of_isGap hgap']
  | between hgap hgap' hne hne' => rw [words_append_gap hgap hne, words_append_gap hgap' hne']

theorem words_eq_of_respacings {s s' : List Char} (h : Relation.ReflTransGen Respacing s s') : words s = words s' := by
  induction h with
  | refl => rfl
  | tail _ hstep ih => rw [ih, words_eq_of_respacing hstep]

end PlaneSketch.Text
