import PlaneSketch.Proofs.Decimal.Layout
import PlaneSketch.Proofs.Text.Words
import PlaneSketch.Rectangle

/-!
# Reading rectangles

A text is a rectangle if it has four words that are numerals of finite value. Blanks only tell the words apart, so it
does not matter which ones there are and how many, and four finite doubles that are written one after another with gaps
between them are read back to the last bit.

* `ofWords?_eq_some_iff`: the words of a rectangle.
* `read_spec`: which texts are accepted and with which result, also when blanks are exchanged and numbers written.
-/

namespace PlaneSketch

open Text Numeral Relation

theorem Numeral.ne_nil_of_literal {s : List Char} {x : Binary64} (h : Literal s x) : s ≠ [] := by
  rintro rfl
  have hread : finite? [] = some x := finite?_eq_some_iff.mpr h
  cases hread

/-- The text of a numeral is a single word. -/
theorem Numeral.isWord_of_literal {s : List Char} {x : Binary64} (h : Literal s x) : IsWord s := by
  obtain ⟨n, hn, -⟩ := id h
  exact ⟨ne_nil_of_literal h, fun c hc => isBlank_of_isNumeralChar (isNumeralChar_of_spells hn c hc)⟩

theorem Numeral.wordsOf_literal {s : List Char} {x : Binary64} (h : Literal s x) : WordsOf s [s] := by
  have hempty : IsGap [] := by simp [IsGap]
  have key : WordsOf ([] ++ (s ++ [])) [s] := .word hempty (isWord_of_literal h) (by simp [BlankHead]) (.gap hempty)
  rwa [List.nil_append, List.append_nil] at key

namespace Rectangle

/-- The numbers of a rectangle in the order in which they are written. -/
def numbers {K : Type} (r : Rectangle K) : List K := [r.first.x, r.first.y, r.second.x, r.second.y]

variable {s : String} {r : Rectangle Binary64}

/-- Four numerals of finite value make up a rectangle. -/
theorem ofWords?_eq_some_iff {ws : List (List Char)} : ofWords? ws = some r ↔ List.Forall₂ Literal ws r.numbers := by
  obtain ⟨⟨x₁, y₁⟩, ⟨x₂, y₂⟩⟩ := r
  simp only [numbers, List.forall₂_cons_right_iff, List.forall₂_nil_right_iff, ← finite?_eq_some_iff]
  constructor
  · intro h
    unfold ofWords? at h
    split at h
    · split at h
      · rename_i h₁ h₂ h₃ h₄
        cases h
        exact ⟨_, _, h₁, ⟨_, _, h₂, ⟨_, _, h₃, ⟨_, _, h₄, rfl, rfl⟩, rfl⟩, rfl⟩, rfl⟩
      · cases h
    · cases h
  · rintro ⟨w₁, _, h₁, ⟨w₂, _, h₂, ⟨w₃, _, h₃, ⟨w₄, _, h₄, rfl, rfl⟩, rfl⟩, rfl⟩, rfl⟩
    simp only [ofWords?, h₁, h₂, h₃, h₄]

theorem read_eq_ok_iff : read s = .ok r ↔ ∃ ws, WordsOf s.toList ws ∧ List.Forall₂ Literal ws r.numbers := by
  simp only [← words_eq_iff, exists_eq_left', ← ofWords?_eq_some_iff]
  unfold read
  split
  · rename_i h
    simp [h]
  · rename_i h
    simp [h]

/-- A text is a rectangle if its words are four numerals of finite value. -/
theorem exists_read_iff : (∃ r, read s = .ok r) ↔
    ∃ ws, WordsOf s.toList ws ∧ ws.length = 4 ∧ ∀ w ∈ ws, (Numeral.finite? w).isSome = true := by
  simp only [read_eq_ok_iff, Option.isSome_iff_exists, finite?_eq_some_iff]
  constructor
  · rintro ⟨r, ws, hws, hall⟩
    refine ⟨ws, hws, hall.length_eq, fun w hw => ?_⟩
    obtain ⟨k, hk, rfl⟩ := List.getElem_of_mem hw
    exact ⟨_, hall.get hk (hall.length_eq ▸ hk)⟩
  · rintro ⟨ws, hws, hlength, hall⟩
    obtain ⟨w₁, w₂, w₃, w₄, rfl⟩ := List.length_eq_four.mp hlength
    simp only [List.forall_mem_cons] at hall
    obtain ⟨⟨x₁, h₁⟩, ⟨y₁, h₂⟩, ⟨x₂, h₃⟩, ⟨y₂, h₄⟩, -⟩ := hall
    exact ⟨⟨⟨x₁, y₁⟩, ⟨x₂, y₂⟩⟩, _, hws, .cons h₁ (.cons h₂ (.cons h₃ (.cons h₄ .nil)))⟩

theorem read_eq_error_iff {fault : Fault} :
    read s = .error fault ↔ fault = .notFourNumbers s ∧ ¬ ∃ r, read s = .ok r := by
  unfold read
  split <;> simp [eq_comm]

/-- Texts that differ only in their gaps are the same rectangle, if any. -/
theorem read_eq_ok_iff_of_respacings {s' : String} (h : ReflTransGen Respacing s.toList s'.toList) :
    read s = .ok r ↔ read s' = .ok r := by
  simp only [read_eq_ok_iff, ← words_eq_iff, words_eq_of_respacings h]

/-- Numbers that are written with gaps between them are read back. -/
theorem read_of_texts {x₁ y₁ x₂ y₂ : Binary64} (hx₁ : x₁.isFinite = true) (hy₁ : y₁.isFinite = true)
    (hx₂ : x₂.isFinite = true) (hy₂ : y₂.isFinite = true) {g₁ g₂ g₃ : List Char} (h₁ : IsGap g₁) (h₂ : IsGap g₂)
    (h₃ : IsGap g₃) (hne₁ : g₁ ≠ []) (hne₂ : g₂ ≠ []) (hne₃ : g₃ ≠ [])
    (hs : s.toList = x₁.text.toList ++ (g₁ ++ (y₁.text.toList ++ (g₂ ++ (x₂.text.toList ++ (g₃ ++ y₂.text.toList)))))) :
    read s = .ok ⟨⟨x₁, y₁⟩, ⟨x₂, y₂⟩⟩ := by
  rw [read_eq_ok_iff, hs]
  have htext : ∀ {x : Binary64}, x.isFinite = true → WordsOf x.text.toList [x.text.toList] := fun hx =>
    wordsOf_literal (literal_text hx)
  exact ⟨_, (htext hx₁).append h₁ hne₁ ((htext hy₁).append h₂ hne₂ ((htext hx₂).append h₃ hne₃ (htext hy₂))),
    .cons (literal_text hx₁) (.cons (literal_text hy₁) (.cons (literal_text hx₂) (.cons (literal_text hy₂) .nil)))⟩

/-- **Reading a rectangle.** A text is accepted exactly if its words are four numerals of finite value, and their values
in order are the coordinates of the two corners; every other text is refused with the one fault there is. Exchanging
gaps changes nothing, and four finite doubles that are written with gaps between them are read back as they were. -/
theorem read_spec :
    (∀ s, (∃ r, read s = .ok r) ↔
      ∃ ws, WordsOf s.toList ws ∧ ws.length = 4 ∧ ∀ w ∈ ws, (Numeral.finite? w).isSome = true) ∧
    (∀ s r, read s = .ok r ↔ ∃ ws, WordsOf s.toList ws ∧ List.Forall₂ Literal ws r.numbers) ∧
    (∀ s r, read s = .ok r → ∀ x ∈ r.numbers, x.isFinite = true) ∧
    (∀ s fault, read s = .error fault ↔ fault = .notFourNumbers s ∧ ¬ ∃ r, read s = .ok r) ∧
    (∀ s s' : String, ReflTransGen Respacing s.toList s'.toList → ∀ r, read s = .ok r ↔ read s' = .ok r) ∧
    ∀ x₁ y₁ x₂ y₂ : Binary64, (∀ x ∈ [x₁, y₁, x₂, y₂], x.isFinite = true) →
      ∀ g₁ g₂ g₃ : String, (∀ g ∈ [g₁, g₂, g₃], IsGap g.toList ∧ g ≠ "") →
        read (x₁.text ++ g₁ ++ y₁.text ++ g₂ ++ x₂.text ++ g₃ ++ y₂.text) = .ok ⟨⟨x₁, y₁⟩, ⟨x₂, y₂⟩⟩ := by
  refine ⟨fun _ => exists_read_iff, fun _ _ => read_eq_ok_iff, ?_, fun _ _ => read_eq_error_iff,
    fun _ _ h _ => read_eq_ok_iff_of_respacings h, ?_⟩
  · intro s r hr x hx
    obtain ⟨ws, -, hall⟩ := read_eq_ok_iff.mp hr
    obtain ⟨k, hk, rfl⟩ := List.getElem_of_mem hx
    exact (hall.get (hall.length_eq ▸ hk) hk).isFinite
  · intro x₁ y₁ x₂ y₂ hfin g₁ g₂ g₃ hgaps
    simp only [List.forall_mem_cons, ne_eq, ← String.toList_eq_nil_iff] at hfin hgaps
    obtain ⟨hx₁, hy₁, hx₂, hy₂, -⟩ := hfin
    obtain ⟨⟨h₁, hne₁⟩, ⟨h₂, hne₂⟩, ⟨h₃, hne₃⟩, -⟩ := hgaps
    exact read_of_texts hx₁ hy₁ hx₂ hy₂ h₁ h₂ h₃ hne₁ hne₂ hne₃ (by simp)

/-- Corners with gaps of several kinds between their coordinates, one of which is a negative zero, and a text with a
number too few. -/
theorem read_between_gaps :
    read (Binary64.text 1 ++ "\t" ++ Binary64.negZero.text ++ "\u3000" ++ (Binary64.ofFraction 1 2).text ++ " \n" ++
        Binary64.text 2) = .ok ⟨⟨1, .negZero⟩, ⟨.ofFraction 1 2, 2⟩⟩ ∧
      read " 1 2 3" = .error (.notFourNumbers " 1 2 3") := by
  obtain ⟨haccepted, -, -, hrefused, -, hwritten⟩ := read_spec
  constructor
  · refine hwritten _ _ _ _ ?_ _ _ _ ?_
    · simp only [List.forall_mem_cons]
      exact ⟨by decide +kernel, by decide +kernel, by decide +kernel, by decide +kernel, by simp⟩
    · simp only [List.forall_mem_cons]
      exact ⟨⟨by decide, by decide⟩, ⟨by decide, by decide⟩, ⟨by decide, by decide⟩, by simp⟩
  · rw [hrefused, haccepted]
    refine ⟨rfl, ?_⟩
    rintro ⟨ws, hws, hlength, -⟩
    have hthree : (words " 1 2 3".toList).length = 3 := by decide
    rw [words_eq_iff.mpr hws] at hthree
    omega

end Rectangle

end PlaneSketch
