import Mathlib.Tactic.SplitIfs
import PlaneSketch.Text.Blank
import PlaneSketch.Text.LowerCase

/-!
# Lower case and the ends of words

A character without case that is not passed over ends a word: what stands before it and what stands behind it are
brought to lower case apart from each other. Blanks are such characters, and no other character becomes one of them.

* `CharSet.holds_eq_of_between`, `CharSet.exists_mem_spans`: sets of characters by the spans between their edges.
* `Uncased.lower_append`: lower case before and behind a character without case.
* `uncased_of_isBlank`, `eq_of_mem_lowerBetween`: blanks, and the characters that become one.
-/

namespace PlaneSketch.Text

/-! ### Spans of code points -/

namespace CharSet

/-- Between two neighbouring edges all code points are in the set or none is. -/
theorem holds_eq_of_between {es : List Nat} {a b n : Nat} (hes : ∀ e ∈ es, e ≤ a ∨ b < e) (ha : a ≤ n) (hb : n ≤ b) :
    holds es n = holds es a := by
  induction es with
  | nil => rfl
  | cons e es ih =>
    obtain ⟨he, hes⟩ := List.forall_mem_cons.mp hes
    have hiff : n < e ↔ a < e := by omega
    simp only [holds, hiff, ih hes]

/-- The spans of a list of edges, each with its first code point and the one behind its last. -/
def spans : List Nat → List (Nat × Nat)
  | first :: behind :: es => (first, behind) :: spans es
  | _ => []

/-- What a set with evenly many edges holds lies in one of its spans. -/
theorem exists_mem_spans {es : List Nat} (heven : es.length % 2 = 0) {n : Nat} (h : holds es n = true) :
    ∃ p ∈ spans es, p.1 ≤ n ∧ n < p.2 := by
  induction es using spans.induct with
  | case1 first behind es ih =>
    simp only [List.length_cons] at heven
    rw [holds_cons, holds_cons] at h
    simp only [Bool.and_eq_true, decide_eq_true_eq, Bool.not_eq_true', Bool.and_eq_false_iff, decide_eq_false_iff_not,
      Nat.not_le, Bool.not_eq_false'] at h
    obtain ⟨hfirst, hbehind | hrest⟩ := h
    · exact ⟨_, List.mem_cons_self .., hfirst, hbehind⟩
    · obtain ⟨p, hp, hn⟩ := ih (by omega) hrest
      exact ⟨p, List.mem_cons_of_mem _ hp, hn⟩
  | case2 es hno =>
    cases es with
    | nil => cases h
    | cons e es =>
      cases es with
      | nil => simp at heven
      | cons f es => exact absurd rfl (hno e f es)

end CharSet

/-! ### Characters without case -/

/-- The character has no case, and a word ends at it. -/
structure Uncased (c : Char) : Prop where
  not_ignorable : caseIgnorable.contains c = false
  not_cased : casedLetters.contains c = false
  lowerChar_eq : lowerChar c = c

variable {c : Char}

theorem Uncased.casedAhead_append (hc : Uncased c) (s t : List Char) : casedAhead (s ++ c :: t) = casedAhead s := by
  induction s with
  | nil => simp [casedAhead, hc.not_ignorable, hc.not_cased]
  | cons d s ih =>
    cases hd : caseIgnorable.contains d with
    | true => simpa [casedAhead, hd] using ih
    | false => simp [casedAhead, hd]

theorem Uncased.lowerBetween_eq (hc : Uncased c) (before after : List Char) : lowerBetween before c after = [c] := by
  have hcased : ∀ {n}, casedLetters.contains (Char.ofNat n) = true → (Char.ofNat n).toNat = n → c.toNat ≠ n := by
    intro n hcontains hn heq
    have hsame : c = Char.ofNat n := Char.toNat_inj.mp (heq.trans hn.symm)
    rw [← hsame, hc.not_cased] at hcontains
    cases hcontains
  rw [lowerBetween, if_neg (hcased (by decide) (by decide)), if_neg (hcased (by decide) (by decide)), hc.lowerChar_eq]

/-- What stands in front of a character without case does not matter behind it. -/
theorem Uncased.go_front (hc : Uncased c) (before front s : List Char) :
    lower.go (before ++ c :: front) s = lower.go before s := by
  induction s generalizing before with
  | nil => rfl
  | cons d s ih =>
    have hrest := ih (d :: before)
    rw [List.cons_append] at hrest
    simp only [lower.go, lowerBetween, hc.casedAhead_append, hrest]

theorem Uncased.go_append (hc : Uncased c) (before s t : List Char) :
    lower.go before (s ++ c :: t) = lower.go before s ++ c :: lower t := by
  induction s generalizing before with
  | nil =>
    have hfront : lower.go (c :: before) t = lower t := hc.go_front [] before t
    show lowerBetween before c t ++ lower.go (c :: before) t = c :: lower t
    rw [hc.lowerBetween_eq, hfront]
    rfl
  | cons d s ih => simp only [List.cons_append, lower.go, lowerBetween, hc.casedAhead_append, ih, List.append_assoc]

/-- A character without case stays, with what is before it and what is behind it apart from each other. -/
theorem Uncased.lower_append (hc : Uncased c) (s t : List Char) : lower (s ++ c :: t) = lower s ++ c :: lower t :=
  hc.go_append [] s t

/-! ### Sets of characters without case -/

/-- No character of a set has case or is passed over, and none is the lower case form of another character. -/
structure IsCaseless (s : CharSet) : Prop where
  length_even : s.edges.length % 2 = 0
  spans_apart : ∀ p ∈ CharSet.spans s.edges,
    (∀ e ∈ caseIgnorable.edges, e ≤ p.1 ∨ p.2 ≤ e) ∧ CharSet.holds caseIgnorable.edges p.1 = false ∧
      (∀ e ∈ casedLetters.edges, e ≤ p.1 ∨ p.2 ≤ e) ∧ CharSet.holds casedLetters.edges p.1 = false ∧
      ∀ r ∈ caseRuns, r.last < p.1 ∨ p.2 ≤ r.first
  images_apart : ∀ r ∈ caseRuns,
    (∀ e ∈ s.edges, e ≤ (r.first + r.shift).toNat ∨ (r.last + r.shift).toNat < e) ∧
      CharSet.holds s.edges (r.first + r.shift).toNat = false
  others_apart : ∀ n ∈ [0, 0x69, 0x307, 0x3C2, 0x3C3], CharSet.holds s.edges n = false

/-- A number that is no code point stands for the character with code point zero. -/
theorem toNat_ofNat_cases (n : Nat) : (Char.ofNat n).toNat = n ∨ (Char.ofNat n).toNat = 0 := by
  by_cases h : n.isValidChar
  · exact .inl (by rw [Char.ofNat, dif_pos h]; rfl)
  · exact .inr (by rw [Char.ofNat, dif_neg h]; rfl)

theorem isCaseless_blanks : IsCaseless blanks := ⟨by decide, by decide +kernel, by decide +kernel, by decide⟩

namespace IsCaseless

variable {s : CharSet}

theorem uncased (hs : IsCaseless s) (hc : s.contains c = true) : Uncased c := by
  obtain ⟨p, hp, hfirst, hbehind⟩ := CharSet.exists_mem_spans hs.length_even hc
  obtain ⟨hignorable, hignorable', hcased, hcased', hruns⟩ := hs.spans_apart p hp
  have hapart : ∀ {edges : List Nat}, (∀ e ∈ edges, e ≤ p.1 ∨ p.2 ≤ e) → CharSet.holds edges p.1 = false →
      CharSet.holds edges c.toNat = false := by
    intro edges hedges hheld
    have hbetween : ∀ e ∈ edges, e ≤ p.1 ∨ p.2 - 1 < e := fun e he => (hedges e he).imp_right (by omega)
    rw [CharSet.holds_eq_of_between hbetween hfirst (by omega), hheld]
  refine ⟨hapart hignorable hignorable', hapart hcased hcased', ?_⟩
  have hnone : caseRuns.find? (·.contains c.toNat) = none := by
    rw [List.find?_eq_none]
    intro r hr hcontains
    simp only [CaseRun.contains, Bool.and_eq_true, decide_eq_true_eq] at hcontains
    rcases hruns r hr with h | h <;> omega
  rw [lowerChar, hnone]

theorem eq_of_contains_lowerChar (hs : IsCaseless s) (hc : s.contains (lowerChar c) = true) : lowerChar c = c := by
  unfold lowerChar at hc ⊢
  split at hc
  · rename_i r hr
    have hmem := List.mem_of_find?_eq_some hr
    have hcontains := List.find?_some hr
    simp only [CaseRun.contains, Bool.and_eq_true, decide_eq_true_eq] at hcontains
    obtain ⟨⟨hfirst, hlast⟩, -⟩ := hcontains
    obtain ⟨hedges, hheld⟩ := hs.images_apart r hmem
    have hfalse : CharSet.holds s.edges (c.toNat + r.shift).toNat = false := by
      rw [CharSet.holds_eq_of_between hedges (Int.toNat_le_toNat (by omega)) (Int.toNat_le_toNat (by omega)), hheld]
    have hzero := hs.others_apart 0 (by simp)
    unfold CharSet.contains at hc
    rcases toNat_ofNat_cases (c.toNat + r.shift).toNat with h | h <;> simp_all
  · rfl

/-- No other character becomes one of the set. -/
theorem eq_of_mem_lowerBetween (hs : IsCaseless s) (hc : s.contains c = true) {before after : List Char} {d : Char}
    (hmem : c ∈ lowerBetween before d after) : c = d := by
  have hothers : ∀ {n}, n ∈ [0, 0x69, 0x307, 0x3C2, 0x3C3] → (Char.ofNat n).toNat = n → c ≠ Char.ofNat n := by
    rintro n hn htoNat rfl
    rw [CharSet.contains, htoNat, hs.others_apart n hn] at hc
    cases hc
  unfold lowerBetween at hmem
  split_ifs at hmem with _ _ hfinal
  · simp only [List.mem_cons, List.not_mem_nil, or_false] at hmem
    rcases hmem with h | h
    · exact absurd h (hothers (by simp) (by decide))
    · exact absurd h (hothers (by simp) (by decide))
  · exact absurd (List.mem_singleton.mp hmem) (hothers (by simp) (by decide))
  · exact absurd (List.mem_singleton.mp hmem) (hothers (by simp) (by decide))
  · obtain rfl := List.mem_singleton.mp hmem
    exact hs.eq_of_contains_lowerChar hc

theorem mem_of_mem_lower (hs : IsCaseless s) (hc : s.contains c = true) {t : List Char} (hmem : c ∈ lower t) :
    c ∈ t := by
  have hgo : ∀ before, c ∈ lower.go before t → c ∈ t := by
    clear hmem
    induction t with
    | nil => simp [lower.go]
    | cons d t ih =>
      intro before hmem
      rcases List.mem_append.mp hmem with h | h
      · rw [hs.eq_of_mem_lowerBetween hc h]
        exact List.mem_cons_self
      · exact List.mem_cons_of_mem _ (ih _ h)
  exact hgo [] hmem

end IsCaseless

end PlaneSketch.Text
