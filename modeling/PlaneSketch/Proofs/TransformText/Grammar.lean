import Mathlib.Data.List.Forall2
import PlaneSketch.TransformText
import PlaneSketch.Proofs.Numeral.Exact
import PlaneSketch.Proofs.Text.Pieces
import PlaneSketch.Proofs.Text.Words

/-!
# The grammar of transformation texts

`Term t op` says that the term `t` stands for the operation `op`: a letter, and behind it, once the parentheses
are deleted, as many literals of finite value as the operation takes, joined by commas. `TermsOf s ts` says that
`ts` are the terms of the text `s`. `defect t` is the reason for which a term that stands for nothing is rejected.

* `readTerm_eq_ok_iff`, `readTerm_eq_error_iff`: a term is read exactly if it stands for an operation, and
  otherwise rejected for its defect.
* `operations_spec`: a text is read exactly if each of its terms is, and otherwise its first bad term is reported.
-/

namespace PlaneSketch.TransformText

open Text Numeral

/-! ### Terms -/

/-- A text without its parentheses. -/
def withoutParentheses (s : List Char) : List Char := s.filter fun c => c ≠ '(' ∧ c ≠ ')'

/-- The term `t` stands for the operation `op`. -/
inductive Term : List Char → Operation Binary64 → Prop
  | scale {payload s t x y} : withoutParentheses payload = s ++ ',' :: t → Literal s x → Literal t y →
      Term ('S' :: payload) (.scale x y)
  | translate {payload s t x y} : withoutParentheses payload = s ++ ',' :: t → Literal s x → Literal t y →
      Term ('T' :: payload) (.translate x y)
  | rotate {payload x} : Literal (withoutParentheses payload) x → Term ('R' :: payload) (.rotate x)

/-- Why a term that stands for no operation is rejected. -/
def defect : List Char → Rejection
  | [] => .unknownOperation
  | letter :: payload =>
    if letter ∉ ['S', 'T', 'R'] then .unknownOperation
    else if (withoutParentheses payload).count ',' + 1 ≠ (if letter = 'R' then 1 else 2) then .argumentCount
    else .notANumber

theorem filter_isParenthesis (s : List Char) : s.filter (fun c => !isParenthesis c) = withoutParentheses s := by
  refine List.filter_congr fun c _ => ?_
  rw [Bool.eq_iff_iff]
  simp [isParenthesis]

theorem arguments_eq (payload : List Char) : arguments payload = split ',' (withoutParentheses payload) :=
  congrArg (split ',') (filter_isParenthesis payload)

/-- Three letters begin a term, and they take two numbers, two numbers and one. -/
theorem arity?_eq (letter : Char) :
    arity? letter = if letter ∉ ['S', 'T', 'R'] then none else some (if letter = 'R' then 1 else 2) := by
  unfold arity?
  split
  · rfl
  · rfl
  · rfl
  · rename_i hS hT hR
    have hnot : letter ∉ ['S', 'T', 'R'] := by
      simp only [List.mem_cons, List.not_mem_nil, or_false, not_or]
      exact ⟨hS, hT, hR⟩
    rw [if_pos hnot]

theorem comma_not_mem_of_literal {s : List Char} {x : Binary64} (h : Literal s x) : ',' ∉ s :=
  not_mem_of_literal h (by decide)

theorem values?_eq_some_iff {ss : List (List Char)} {xs : List Binary64} :
    values? ss = some xs ↔ List.Forall₂ Literal ss xs := by
  induction ss generalizing xs with
  | nil => cases xs <;> simp [values?]
  | cons s ss ih =>
    cases xs with
    | nil =>
      simp only [values?]
      split <;> simp
    | cons x xs =>
      rw [List.forall₂_cons, ← finite?_eq_some_iff, ← ih]
      simp only [values?]
      split
      · rename_i y ys hy hys
        simp [hy, hys]
      · rename_i hno
        simp only [reduceCtorEq, false_iff, not_and]
        exact fun hx hxs => hno x xs hx hxs

/-- Two literals with a comma between them are two arguments. -/
theorem literals_pair_iff {payload : List Char} {x y : Binary64} :
    List.Forall₂ Literal (arguments payload) [x, y] ↔
      ∃ s t, withoutParentheses payload = s ++ ',' :: t ∧ Literal s x ∧ Literal t y := by
  rw [arguments_eq]
  constructor
  · intro h
    obtain ⟨s, rest, hs, hrest, hargs⟩ := List.forall₂_cons_right_iff.mp h
    obtain ⟨t, rest', ht, hnil, rfl⟩ := List.forall₂_cons_right_iff.mp hrest
    obtain rfl := List.forall₂_nil_right_iff.mp hnil
    exact ⟨s, t, (split_eq_iff.mp hargs).joined.symm, hs, ht⟩
  · rintro ⟨s, t, h, hs, ht⟩
    -- no literal holds a comma, so the comma that joins the two is the only one
    have hargs : split ',' (withoutParentheses payload) = [s, t] := split_eq_iff.mpr
      ⟨by simp, by simp [comma_not_mem_of_literal hs, comma_not_mem_of_literal ht], h.symm⟩
    rw [hargs]
    exact .cons hs (.cons ht .nil)

theorem literals_singleton_iff {payload : List Char} {x : Binary64} :
    List.Forall₂ Literal (arguments payload) [x] ↔ Literal (withoutParentheses payload) x := by
  rw [arguments_eq]
  constructor
  · intro h
    obtain ⟨s, rest, hs, hnil, hargs⟩ := List.forall₂_cons_right_iff.mp h
    obtain rfl := List.forall₂_nil_right_iff.mp hnil
    have hjoin : s = withoutParentheses payload := (split_eq_iff.mp hargs).joined
    exact hjoin ▸ hs
  · intro h
    rw [split_of_not_mem (comma_not_mem_of_literal h)]
    exact .cons h .nil

/-! ### Reading a term -/

theorem arity?_of_operation? {letter : Char} {xs : List Binary64} {op : Operation Binary64}
    (h : operation? letter xs = some op) : arity? letter = some xs.length := by
  unfold operation? at h
  split at h <;> first | rfl | simp at h

/-- A term is read if its arguments are literals and its letter makes an operation of their values. -/
theorem readTerm_cons_eq_ok_iff {letter : Char} {payload : List Char} {op : Operation Binary64} :
    readTerm (letter :: payload) = .ok op ↔
      ∃ xs, List.Forall₂ Literal (arguments payload) xs ∧ operation? letter xs = some op := by
  simp only [← values?_eq_some_iff, ← Option.bind_eq_some_iff]
  constructor
  · intro h
    simp only [readTerm] at h
    split at h
    · simp at h
    · split at h
      · simp at h
      · split at h
        · rename_i op' hop'
          rw [hop', Except.ok.inj h]
        · simp at h
  · intro h
    obtain ⟨xs, hxs, hop⟩ := Option.bind_eq_some_iff.mp h
    have hlen : (arguments payload).length = xs.length := (values?_eq_some_iff.mp hxs).length_eq
    simp [readTerm, arity?_of_operation? hop, hlen, h]

/-- **Terms** are read exactly if they stand for an operation. -/
theorem readTerm_eq_ok_iff {t : List Char} {op : Operation Binary64} : readTerm t = .ok op ↔ Term t op := by
  cases t with
  | nil =>
    simp only [readTerm, reduceCtorEq, false_iff]
    rintro ⟨⟩
  | cons letter payload =>
    rw [readTerm_cons_eq_ok_iff]
    constructor
    · rintro ⟨xs, hxs, hop⟩
      unfold operation? at hop
      split at hop
      · obtain ⟨s, t, h, hs, ht⟩ := literals_pair_iff.mp hxs
        rw [← Option.some.inj hop]
        exact .scale h hs ht
      · obtain ⟨s, t, h, hs, ht⟩ := literals_pair_iff.mp hxs
        rw [← Option.some.inj hop]
        exact .translate h hs ht
      · rw [← Option.some.inj hop]
        exact .rotate (literals_singleton_iff.mp hxs)
      · simp at hop
    · rintro (⟨h, hs, ht⟩ | ⟨h, hs, ht⟩ | hs)
      · exact ⟨_, literals_pair_iff.mpr ⟨_, _, h, hs, ht⟩, rfl⟩
      · exact ⟨_, literals_pair_iff.mpr ⟨_, _, h, hs, ht⟩, rfl⟩
      · exact ⟨_, literals_singleton_iff.mpr hs, rfl⟩

theorem eq_defect_of_readTerm_eq_error {t : List Char} {why : Rejection} (h : readTerm t = .error why) :
    why = defect t := by
  cases t with
  | nil =>
    simp only [readTerm, Except.error.injEq] at h
    exact h.symm
  | cons letter payload =>
    have hlen : (arguments payload).length = (withoutParentheses payload).count ',' + 1 := by
      rw [arguments_eq]
      exact length_split ',' _
    simp only [readTerm, arity?_eq, hlen] at h
    rw [defect]
    by_cases hletter : letter ∉ ['S', 'T', 'R']
    · simp only [if_pos hletter] at h ⊢
      exact (Except.error.inj h).symm
    · simp only [if_neg hletter] at h ⊢
      by_cases hcount : (withoutParentheses payload).count ',' + 1 ≠ (if letter = 'R' then 1 else 2)
      · rw [if_pos hcount] at h ⊢
        exact (Except.error.inj h).symm
      · rw [if_neg hcount] at h ⊢
        split at h
        · simp at h
        · exact (Except.error.inj h).symm

theorem readTerm_eq_error_iff {t : List Char} {why : Rejection} :
    readTerm t = .error why ↔ (¬ ∃ op, Term t op) ∧ why = defect t := by
  simp only [← readTerm_eq_ok_iff]
  constructor
  · intro h
    exact ⟨by simp [h], eq_defect_of_readTerm_eq_error h⟩
  · rintro ⟨hno, rfl⟩
    cases h : readTerm t with
    | ok op => exact absurd ⟨op, h⟩ hno
    | error why => rw [eq_defect_of_readTerm_eq_error h]

/-- Nothing between the parentheses is one argument, not none. -/
example : readTerm "S()".toList = .error .argumentCount ∧ readTerm "R()".toList = .error .notANumber := by
  decide

/-! ### Reading a list of terms -/

theorem readTerms_eq_ok_iff {ts : List (List Char)} {ops : List (Operation Binary64)} :
    readTerms ts = .ok ops ↔ List.Forall₂ Term ts ops := by
  induction ts generalizing ops with
  | nil => cases ops <;> simp [readTerms]
  | cons t ts ih =>
    -- reading is a function, so that `Term` determines the operation
    cases h : readTerm t with
    | error why =>
      have hno : ∀ op, ¬ Term t op := fun op hop => (readTerm_eq_error_iff.mp h).1 ⟨op, hop⟩
      cases ops <;> simp [readTerms, h, hno]
    | ok op =>
      have hop : ∀ op', Term t op' ↔ op' = op := fun op' => by
        rw [← readTerm_eq_ok_iff, h, Except.ok.injEq, eq_comm]
      cases ops with
      | nil => cases hts : readTerms ts <;> simp [readTerms, h, hts, Except.map]
      | cons op' ops =>
        rw [List.forall₂_cons, hop, ← ih]
        cases hts : readTerms ts <;> simp [readTerms, h, hts, Except.map, eq_comm]

/-- The report names the first term that stands for nothing. -/
theorem readTerms_eq_error_iff {ts : List (List Char)} {r : RejectedTerm} :
    readTerms ts = .error r ↔ ∃ good bad rest, ts = good ++ bad :: rest ∧ (∀ t ∈ good, ∃ op, Term t op) ∧
      (¬ ∃ op, Term bad op) ∧ r = ⟨defect bad, String.ofList bad⟩ := by
  -- the good terms in front grow by one with every term that is read
  induction ts with
  | nil => simp [readTerms]
  | cons t ts ih =>
    cases h : readTerm t with
    | error why =>
      obtain ⟨hno, rfl⟩ := readTerm_eq_error_iff.mp h
      simp only [readTerms, h, Except.error.injEq]
      constructor
      · intro hr
        exact ⟨[], t, ts, rfl, by simp, hno, hr.symm⟩
      · rintro ⟨good, bad, rest, heq, hgood, -, rfl⟩
        cases good with
        | nil =>
          obtain ⟨rfl, -⟩ := List.cons_eq_cons.mp heq
          rfl
        | cons g good =>
          obtain ⟨rfl, -⟩ := List.cons_eq_cons.mp heq
          exact absurd (hgood t (by simp)) hno
    | ok op =>
      have hop : Term t op := readTerm_eq_ok_iff.mp h
      have hstep : readTerms (t :: ts) = .error r ↔ readTerms ts = .error r := by
        simp only [readTerms, h]
        cases readTerms ts <;> simp [Except.map]
      rw [hstep, ih]
      constructor
      · rintro ⟨good, bad, rest, rfl, hgood, hbad, hr⟩
        refine ⟨t :: good, bad, rest, rfl, ?_, hbad, hr⟩
        simpa using ⟨⟨op, hop⟩, hgood⟩
      · rintro ⟨good, bad, rest, heq, hgood, hbad, hr⟩
        cases good with
        | nil =>
          obtain ⟨rfl, -⟩ := List.cons_eq_cons.mp heq
          exact absurd ⟨op, hop⟩ hbad
        | cons g good =>
          obtain ⟨-, rfl⟩ := List.cons_eq_cons.mp heq
          exact ⟨good, bad, rest, rfl, fun u hu => hgood u (by simp [hu]), hbad, hr⟩

/-! ### Whole texts -/

/-- The terms of a text: none if it is all white space, else the pieces of what is left of it without its white
space. -/
inductive TermsOf (s : List Char) : List (List Char) → Prop
  | blank : (∀ c ∈ s, c.toNat ∈ whiteSpace) → TermsOf s []
  | pieces {ts} : (¬ ∀ c ∈ s, c.toNat ∈ whiteSpace) → Pieces '*' (s.filter fun c => c.toNat ∉ whiteSpace) ts →
      TermsOf s ts

theorem withoutBlanks_eq (s : List Char) : withoutBlanks s = s.filter fun c => c.toNat ∉ whiteSpace := by
  refine List.filter_congr fun c _ => ?_
  rw [Bool.eq_iff_iff]
  simp [← isBlank_iff]

theorem withoutBlanks_eq_nil_iff {s : List Char} : withoutBlanks s = [] ↔ ∀ c ∈ s, c.toNat ∈ whiteSpace := by
  simp [withoutBlanks, List.filter_eq_nil_iff, isBlank_iff]

theorem terms_eq_iff {s : List Char} {ts : List (List Char)} : terms s = ts ↔ TermsOf s ts := by
  simp only [terms, List.isEmpty_iff]
  -- nothing between separators is one empty term, and so nothing at all has to be told apart
  by_cases hblank : withoutBlanks s = []
  · rw [if_pos hblank]
    have hall := withoutBlanks_eq_nil_iff.mp hblank
    constructor
    · rintro rfl
      exact .blank hall
    · rintro (_ | ⟨hnot, -⟩)
      · rfl
      · exact absurd hall hnot
  · rw [if_neg hblank, split_eq_iff, withoutBlanks_eq]
    have hnot := mt withoutBlanks_eq_nil_iff.mpr hblank
    constructor
    · exact fun h => .pieces hnot h
    · rintro (hall | ⟨-, h⟩)
      · exact absurd hall hnot
      · exact h

/-- **Transformation texts** are read exactly if each of their terms stands for an operation, and then as these
operations in order; otherwise the first term that stands for none is reported with its defect. -/
theorem operations_spec (s : String) :
    (∀ ops, operations s = .ok ops ↔ ∃ ts, TermsOf s.toList ts ∧ List.Forall₂ Term ts ops) ∧
    ∀ r, operations s = .error r ↔ ∃ good bad rest, TermsOf s.toList (good ++ bad :: rest) ∧
      (∀ t ∈ good, ∃ op, Term t op) ∧ (¬ ∃ op, Term bad op) ∧ r = ⟨defect bad, String.ofList bad⟩ := by
  simp only [operations, readTerms_eq_ok_iff, readTerms_eq_error_iff, ← terms_eq_iff]
  constructor
  · intro ops
    simp
  · intro r
    simp

/-- A tab inside a number and a parenthesis too many in the first term; the second term begins with a parenthesis, which
hides that the third one has an argument too few. -/
theorem first_bad_term_reported :
    let turn : Operation Binary64 := .rotate (Decimal.toBinary64 false ⟨90, 0⟩)
    operations " R(9\t0)) " = .ok [turn] ∧
    TermsOf " R(9\t0)) * (T(1,2)*S(1)".toList ["R(90))".toList, "(T(1,2)".toList, "S(1)".toList] ∧
    (¬ ∃ op, Term "S(1)".toList op) ∧ defect "S(1)".toList = .argumentCount ∧
    operations " R(9\t0)) * (T(1,2)*S(1)" = .error ⟨.unknownOperation, "(T(1,2)"⟩ := by
  have hliteral : Literal "90".toList (Decimal.toBinary64 false ⟨90, 0⟩) :=
    finite?_eq_some_iff.mp (by decide +kernel)
  have hfirst : Term "R(90))".toList (.rotate (Decimal.toBinary64 false ⟨90, 0⟩)) :=
    @Term.rotate "(90))".toList _ hliteral
  have hsecond : ¬ ∃ op, Term "(T(1,2)".toList op := by
    rintro ⟨op, ⟨⟩⟩
  have hthird : ¬ ∃ op, Term "S(1)".toList op := by
    rintro ⟨op, hop⟩
    cases hop with
    | scale hpayload =>
      have hcomma : ',' ∈ withoutParentheses "(1)".toList := hpayload ▸ by simp
      exact absurd hcomma (by decide)
  have hletter : 'R'.toNat ∉ whiteSpace := by decide
  have hterms : TermsOf " R(9\t0)) * (T(1,2)*S(1)".toList ["R(90))".toList, "(T(1,2)".toList, "S(1)".toList] :=
    .pieces (fun hall => hletter (hall 'R' (by decide))) ⟨by decide, by decide, by decide⟩
  have hone : TermsOf " R(9\t0)) ".toList ["R(90))".toList] :=
    .pieces (fun hall => hletter (hall 'R' (by decide))) ⟨by decide, by decide, by decide⟩
  refine ⟨((operations_spec _).1 _).mpr ⟨_, hone, .cons hfirst .nil⟩, hterms, hthird, by decide, ?_⟩
  have hgood : ∀ t ∈ ["R(90))".toList], ∃ op, Term t op := by
    intro t ht
    obtain rfl := List.mem_singleton.mp ht
    exact ⟨_, hfirst⟩
  exact ((operations_spec _).2 _).mpr ⟨["R(90))".toList], _, ["S(1)".toList], hterms, hgood, hsecond, rfl⟩

end PlaneSketch.TransformText
