import PlaneSketch.Numeral
import PlaneSketch.Text.Blank

/-!
# The grammar of numerals

A numeral is an optional sign, digits with an optional point, and an optional exponent:
`sign? (D+ ('.' D*)? | '.' D+) (('e' | 'E') sign? D+)?`, where `D` is a decimal digit of any script.
`Numeral.Spells s n` says that the text `s` is derived in this way and that `n` holds its parts.

* `read?_eq_some_iff`: reading accepts exactly the derived texts, with their parts.
* `finite?_eq_some_iff_value`: the accepted texts of finite value.
-/

namespace PlaneSketch

namespace Text

/-! ### Rows of digits -/

/-- `s` is a row of decimal digits whose values are `ds`. -/
def DigitsOf (s : List Char) (ds : List Nat) : Prop := s.map digitValue? = ds.map some

/-- No digit stands at the front of `s`. -/
def NoDigitHead (s : List Char) : Prop := ∀ c ∈ s.head?, digitValue? c = none

theorem digitsOf_nil : DigitsOf [] [] := rfl

theorem digitsOf_cons_iff {c : Char} {s : List Char} {d : Nat} {ds : List Nat} :
    DigitsOf (c :: s) (d :: ds) ↔ digitValue? c = some d ∧ DigitsOf s ds := by
  simp [DigitsOf]

theorem DigitsOf.eq_nil_iff {s : List Char} {ds : List Nat} (h : DigitsOf s ds) : s = [] ↔ ds = [] := by
  have := congrArg List.length h
  simp only [List.length_map] at this
  rw [← List.length_eq_zero_iff, ← List.length_eq_zero_iff, this]

theorem digitRow_append {s rest : List Char} {ds : List Nat} (h : DigitsOf s ds) (hr : NoDigitHead rest) :
    digitRow (s ++ rest) = (ds, rest) := by
  induction s generalizing ds with
  | nil =>
    have : ds = [] := h.eq_nil_iff.mp rfl
    subst this
    cases rest with
    | nil => rfl
    | cons c t => simp [digitRow, hr c (by simp)]
  | cons c s ih =>
    cases ds with
    | nil => exact absurd (h.eq_nil_iff.mpr rfl) (by simp)
    | cons d ds =>
      obtain ⟨hc, hs⟩ := digitsOf_cons_iff.mp h
      simp [digitRow, hc, ih hs]

/-- What is taken from the front of a text is a row of digits, and no digit is left there. -/
theorem digitRow_spec (s : List Char) :
    ∃ t, s = t ++ (digitRow s).2 ∧ DigitsOf t (digitRow s).1 ∧ NoDigitHead (digitRow s).2 := by
  induction s with
  | nil => exact ⟨[], rfl, digitsOf_nil, by simp [NoDigitHead, digitRow]⟩
  | cons c s ih =>
    cases hc : digitValue? c with
    | none => exact ⟨[], by simp [digitRow, hc], by simp [digitRow, hc, digitsOf_nil],
        by simp [digitRow, hc, NoDigitHead]⟩
    | some d =>
      obtain ⟨t, hs, ht, hrest⟩ := ih
      refine ⟨c :: t, ?_, ?_, ?_⟩
      · simpa [digitRow, hc] using hs
      · simpa [digitRow, hc] using digitsOf_cons_iff.mpr ⟨hc, ht⟩
      · simpa [digitRow, hc] using hrest

end Text

namespace Numeral

open Text

/-! ### The parts of a numeral -/

/-- An optional sign, and whether it is a minus. -/
inductive SignText : List Char → Bool → Prop
  | absent : SignText [] false
  | plus : SignText ['+'] false
  | minus : SignText ['-'] true

/-- Digits with an optional point, and the values of the digits before and after it. -/
inductive MantissaText : List Char → List Nat → List Nat → Prop
  | whole {s ds} : DigitsOf s ds → ds ≠ [] → MantissaText s ds []
  | point {s ds t es} : DigitsOf s ds → ds ≠ [] → DigitsOf t es → MantissaText (s ++ '.' :: t) ds es
  | fraction {t es} : DigitsOf t es → es ≠ [] → MantissaText ('.' :: t) [] es

/-- An optional exponent, and its value. -/
inductive ExponentText : List Char → Int → Prop
  | absent : ExponentText [] 0
  | given {mark s negative t ds} : mark = 'e' ∨ mark = 'E' → SignText s negative → DigitsOf t ds → ds ≠ [] →
      ExponentText (mark :: (s ++ t)) (if negative then -(digitsValue ds : Int) else digitsValue ds)

/-- The text `s` is a numeral with the parts that `n` holds. -/
inductive Spells : List Char → Numeral → Prop
  | mk {a b c negative whole fraction exponent} : SignText a negative → MantissaText b whole fraction →
      ExponentText c exponent → Spells (a ++ (b ++ c)) ⟨negative, whole, fraction, exponent⟩

/-! ### The characters of numerals -/

/-- Digits, signs, the point and the marks of an exponent. -/
def IsNumeralChar (c : Char) : Prop := (digitValue? c).isSome ∨ c ∈ ['+', '-', '.', 'e', 'E']

instance (c : Char) : Decidable (IsNumeralChar c) := inferInstanceAs (Decidable (_ ∨ _))

theorem isNumeralChar_of_digitsOf {s : List Char} {ds : List Nat} (h : DigitsOf s ds) :
    ∀ c ∈ s, IsNumeralChar c := by
  intro c hc
  have hmem : digitValue? c ∈ s.map digitValue? := List.mem_map_of_mem hc
  rw [h] at hmem
  obtain ⟨d, -, hd⟩ := List.mem_map.mp hmem
  exact .inl (by rw [← hd]; rfl)

theorem isNumeralChar_of_sign {s : List Char} {negative : Bool} (h : SignText s negative) :
    ∀ c ∈ s, IsNumeralChar c := by
  cases h <;> simp [IsNumeralChar]

theorem isNumeralChar_of_spells {s : List Char} {n : Numeral} (h : Spells s n) : ∀ c ∈ s, IsNumeralChar c := by
  have hpoint : IsNumeralChar '.' := .inr (by simp)
  obtain ⟨ha, hb, he⟩ := h
  simp only [List.forall_mem_append]
  refine ⟨isNumeralChar_of_sign ha, ?_, ?_⟩
  · cases hb with
    | whole hs => exact isNumeralChar_of_digitsOf hs
    | point hs _ ht =>
      simp only [List.forall_mem_append, List.forall_mem_cons]
      exact ⟨isNumeralChar_of_digitsOf hs, hpoint, isNumeralChar_of_digitsOf ht⟩
    | fraction ht =>
      simp only [List.forall_mem_cons]
      exact ⟨hpoint, isNumeralChar_of_digitsOf ht⟩
  · cases he with
    | absent => simp
    | given hmark hs ht =>
      simp only [List.forall_mem_append, List.forall_mem_cons]
      refine ⟨?_, isNumeralChar_of_sign hs, isNumeralChar_of_digitsOf ht⟩
      rcases hmark with rfl | rfl <;> exact .inr (by simp)

/-- Digits of all scripts, signs, the point and the marks of an exponent are not blank. -/
theorem isBlank_of_isNumeralChar {c : Char} (h : IsNumeralChar c) : isBlank c = false := by
  rcases h with hdigit | hmark
  · have hruns : ∀ start ∈ digitRuns, ∀ k < 10, CharSet.holds blanks.edges (start + k) = false := by
      decide +kernel
    obtain ⟨d, hd⟩ := Option.isSome_iff_exists.mp hdigit
    obtain ⟨start, hstart, -⟩ := Option.map_eq_some_iff.mp hd
    have hmem := List.mem_of_find?_eq_some hstart
    have hrange := List.find?_some hstart
    simp only [Bool.and_eq_true, decide_eq_true_eq] at hrange
    have hk := hruns start hmem (c.toNat - start) (by omega)
    rwa [Nat.add_sub_cancel' hrange.1] at hk
  · simp only [List.mem_cons, List.not_mem_nil, or_false] at hmark
    rcases hmark with rfl | rfl | rfl | rfl | rfl <;> decide

/-! ### Signs -/

theorem sign_of_digit {c : Char} {d : Nat} (hc : digitValue? c = some d) (s : List Char) :
    sign (c :: s) = (false, c :: s) := by
  have hplus : c ≠ '+' := by rintro rfl; simp [show digitValue? '+' = none from rfl] at hc
  have hminus : c ≠ '-' := by rintro rfl; simp [show digitValue? '-' = none from rfl] at hc
  simp [sign, hplus, hminus]

theorem sign_of_digitsOf {s : List Char} {ds : List Nat} (h : DigitsOf s ds) (hne : ds ≠ [])
    (rest : List Char) : sign (s ++ rest) = (false, s ++ rest) := by
  obtain ⟨d, es, rfl⟩ := List.exists_cons_of_ne_nil hne
  obtain ⟨c, t, rfl⟩ := List.exists_cons_of_ne_nil fun hs => hne (h.eq_nil_iff.mp hs)
  exact sign_of_digit (digitsOf_cons_iff.mp h).1 _

theorem sign_of_mantissa {s : List Char} {ds es : List Nat} (h : MantissaText s ds es) (rest : List Char) :
    sign (s ++ rest) = (false, s ++ rest) := by
  cases h with
  | whole hs hne => exact sign_of_digitsOf hs hne rest
  | point hs hne ht =>
    rw [List.append_assoc]
    exact sign_of_digitsOf hs hne _
  | fraction ht hne => rfl

/-- A sign is taken off, if what follows it does not begin with another one. -/
theorem SignText.sign_append {a b : List Char} {negative : Bool} (h : SignText a negative)
    (hb : sign b = (false, b)) : sign (a ++ b) = (negative, b) := by
  cases h with
  | absent => exact hb
  | plus => rfl
  | minus => rfl

theorem sign_spec (s : List Char) : ∃ a, s = a ++ (sign s).2 ∧ SignText a (sign s).1 := by
  unfold sign
  split
  · exact ⟨['+'], rfl, .plus⟩
  · exact ⟨['-'], rfl, .minus⟩
  · exact ⟨[], rfl, .absent⟩

/-! ### Exponents -/

/-- The mark of an exponent is neither a digit nor a point. -/
theorem ExponentText.noDigitHead {c : List Char} {e : Int} (h : ExponentText c e) : NoDigitHead c := by
  intro k hk
  cases h with
  | absent => simp at hk
  | given hmark =>
    simp only [List.head?_cons, Option.mem_def, Option.some.injEq] at hk
    subst hk
    rcases hmark with rfl | rfl <;> rfl

theorem ExponentText.fractionRow {c : List Char} {e : Int} (h : ExponentText c e) :
    fractionRow c = ([], c) := by
  cases h with
  | absent => rfl
  | given hmark => rcases hmark with rfl | rfl <;> rfl

theorem exponentOf?_eq_some_iff {c : List Char} {e : Int} : exponentOf? c = some e ↔ ExponentText c e := by
  constructor
  · intro h
    cases c with
    | nil =>
      simp only [exponentOf?, Option.some.injEq] at h
      subst h
      exact .absent
    | cons mark s =>
      simp only [exponentOf?] at h
      split at h
      · rename_i hmark
        obtain ⟨a, hs, ha⟩ := sign_spec s
        obtain ⟨t, ht, hrow, -⟩ := digitRow_spec (sign s).2
        -- the digits have to reach the end of the text, and there has to be one
        split at h
        · simp at h
        · rename_i ds hne hds
          rw [hds] at ht hrow
          simp only [List.append_nil, Option.some.injEq] at ht h
          subst h
          have key := ExponentText.given hmark ha hrow (by rintro rfl; exact hne rfl)
          rwa [← ht, ← hs] at key
        · simp at h
      · simp at h
  · rintro (_ | ⟨hmark, hsign, hrow, hne⟩)
    · rfl
    · rename_i mark a negative t ds
      have hs := hsign.sign_append (by simpa using sign_of_digitsOf hrow hne [])
      have hd : digitRow (t ++ []) = (ds, []) := digitRow_append hrow (by simp [NoDigitHead])
      rw [List.append_nil] at hd
      simp only [exponentOf?, if_pos hmark, hs, hd]

/-! ### Mantissas -/

theorem MantissaText.ne_nil {s : List Char} {ds es : List Nat} (h : MantissaText s ds es) :
    (ds.isEmpty && es.isEmpty) = false := by
  cases h with
  | whole hs hne => simp [hne]
  | point hs hne ht => simp [hne]
  | fraction ht hne => simp [hne]

/-- The digits on both sides of the point are taken off, if what follows begins with none of them. -/
theorem MantissaText.rows {s c : List Char} {ds es : List Nat} (h : MantissaText s ds es)
    (hd : NoDigitHead c) (hp : Numeral.fractionRow c = ([], c)) :
    (digitRow (s ++ c)).1 = ds ∧ Numeral.fractionRow (digitRow (s ++ c)).2 = (es, c) := by
  have hpoint : ∀ t : List Char, NoDigitHead ('.' :: t) := by
    intro t k hk
    simp only [List.head?_cons, Option.mem_def, Option.some.injEq] at hk
    subst hk
    rfl
  cases h with
  | whole hs hne =>
    rw [digitRow_append hs hd]
    exact ⟨rfl, hp⟩
  | point hs hne ht =>
    rw [List.append_assoc, List.cons_append, digitRow_append hs (hpoint _)]
    exact ⟨rfl, digitRow_append ht hd⟩
  | fraction ht hne => exact ⟨rfl, digitRow_append ht hd⟩

theorem fractionRow_cases (s : List Char) :
    (∃ t, s = '.' :: t ∧ Numeral.fractionRow s = digitRow t) ∨ Numeral.fractionRow s = ([], s) := by
  unfold Numeral.fractionRow
  split
  · exact .inl ⟨_, rfl, rfl⟩
  · exact .inr rfl

theorem mantissa_spec (s : List Char)
    (hne : ((digitRow s).1.isEmpty && (Numeral.fractionRow (digitRow s).2).1.isEmpty) = false) :
    ∃ b, s = b ++ (Numeral.fractionRow (digitRow s).2).2 ∧
      MantissaText b (digitRow s).1 (Numeral.fractionRow (digitRow s).2).1 := by
  obtain ⟨a, hs, hrow, -⟩ := digitRow_spec s
  generalize (digitRow s).1 = ds at *
  generalize (digitRow s).2 = rest at *
  rcases fractionRow_cases rest with ⟨t, rfl, ht⟩ | hrest
  · obtain ⟨b, hb, hfrac, -⟩ := digitRow_spec t
    rw [ht] at hne ⊢
    by_cases hds : ds = []
    · have ha : a = [] := hrow.eq_nil_iff.mpr hds
      subst hds ha
      refine ⟨'.' :: b, ?_, .fraction hfrac (by simpa using hne)⟩
      rw [hs, List.nil_append, List.cons_append, ← hb]
    · refine ⟨a ++ '.' :: b, ?_, .point hrow hds hfrac⟩
      rw [hs, List.append_assoc, List.cons_append, ← hb]
  · rw [hrest] at hne ⊢
    exact ⟨a, hs, .whole hrow (by simpa using hne)⟩

/-! ### Whole numerals -/

/-- **Reading** accepts exactly the texts of the grammar, with their parts. -/
theorem read?_eq_some_iff {s : List Char} {n : Numeral} : read? s = some n ↔ Spells s n := by
  constructor
  · intro h
    simp only [read?] at h
    split at h
    · simp at h
    · rename_i hne
      obtain ⟨e, he, rfl⟩ := Option.map_eq_some_iff.mp h
      obtain ⟨a, hs, ha⟩ := sign_spec s
      obtain ⟨b, hb, hmant⟩ := mantissa_spec (sign s).2 (by simpa using hne)
      have key := Spells.mk ha hmant (exponentOf?_eq_some_iff.mp he)
      rwa [← hb, ← hs] at key
  · rintro ⟨ha, hb, hc⟩
    obtain ⟨hwhole, hfrac⟩ := hb.rows hc.noDigitHead hc.fractionRow
    simp only [read?, ha.sign_append (sign_of_mantissa hb _), hwhole, hfrac, hb.ne_nil,
      exponentOf?_eq_some_iff.mpr hc]
    rfl

/-- A text is accepted if it is a numeral whose value is finite. -/
theorem finite?_eq_some_iff_value {s : List Char} {x : Binary64} :
    finite? s = some x ↔ ∃ n, Spells s n ∧ n.value = x ∧ x.isFinite = true := by
  unfold finite?
  cases h : read? s with
  | none =>
    have hno : ∀ n, ¬ Spells s n := fun n hn => by simp [read?_eq_some_iff.mpr hn] at h
    simp [hno]
  | some n =>
    have huniq : ∀ m, Spells s m ↔ m = n := fun m => by
      rw [← read?_eq_some_iff, h, Option.some.injEq, eq_comm]
    simp only [huniq, exists_eq_left]
    split
    · rename_i hfin
      simp only [Option.some.injEq]
      exact ⟨fun hx => ⟨hx, hx ▸ hfin⟩, fun hx => hx.1⟩
    · rename_i hfin
      simp only [reduceCtorEq, false_iff]
      rintro ⟨rfl, hx⟩
      exact hfin hx

end Numeral

end PlaneSketch
