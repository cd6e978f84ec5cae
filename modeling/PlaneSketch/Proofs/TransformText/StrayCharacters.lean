import PlaneSketch.Proofs.Insertion
import PlaneSketch.Proofs.TransformText.Grammar

/-!
# Blanks and stray parentheses

Blanks do not matter anywhere in a transformation text, not even in a report. Parentheses do not matter behind the
first character of a term: the same operations are read, or the same term is rejected for the same reason, but the
report shows the term as it was written. What they leave of a text are its bare terms.

* `map_bare_split_of_insideTerm`: one more parenthesis inside a term leaves the bare terms as they are.
* `operations_eq_error_iff`, `RejectedAt.of_map_bare`: the index of a rejected term, and what bare terms say about it.
* `stray_characters`: any number of blanks, and any number of parentheses.
-/

namespace PlaneSketch.TransformText

open Text Relation

/-! ### Bare terms -/

/-- A term without the parentheses behind its first character. -/
def bare : List Char → List Char
  | [] => []
  | letter :: payload => letter :: withoutParentheses payload

theorem withoutParentheses_idem (s : List Char) :
    withoutParentheses (withoutParentheses s) = withoutParentheses s := by
  simp [withoutParentheses]

theorem withoutParentheses_append (s t : List Char) :
    withoutParentheses (s ++ t) = withoutParentheses s ++ withoutParentheses t :=
  List.filter_append s t

theorem withoutParentheses_bare (t : List Char) : withoutParentheses (bare t) = withoutParentheses t := by
  cases t with
  | nil => rfl
  | cons letter payload =>
    show withoutParentheses ([letter] ++ withoutParentheses payload) = withoutParentheses ([letter] ++ payload)
    rw [withoutParentheses_append, withoutParentheses_append, withoutParentheses_idem]

theorem readTerm_bare (t : List Char) : readTerm (bare t) = readTerm t := by
  cases t with
  | nil => rfl
  | cons letter payload =>
    have harguments : arguments (withoutParentheses payload) = arguments payload := by
      rw [arguments_eq, arguments_eq, withoutParentheses_idem]
    simp only [bare, readTerm, harguments]

theorem term_bare_iff {t : List Char} {op : Operation Binary64} : Term (bare t) op ↔ Term t op := by
  rw [← readTerm_eq_ok_iff, readTerm_bare, readTerm_eq_ok_iff]

theorem defect_bare (t : List Char) : defect (bare t) = defect t := by
  cases t with
  | nil => rfl
  | cons letter payload => simp only [bare, defect, withoutParentheses_idem]

/-! ### Parentheses inside terms -/

/-- A parenthesis behind a character of its term. -/
def InsideTerm (before : List Char) (c : Char) : Prop :=
  isParenthesis c = true ∧ ∃ d, before.getLast? = some d ∧ d ≠ times

theorem ne_times_of_isParenthesis {c : Char} (h : isParenthesis c = true) : c ≠ times := by
  rintro rfl
  exact absurd h (by decide)

theorem isBlank_of_isParenthesis {c : Char} (h : isParenthesis c = true) : isBlank c = false := by
  simp only [isParenthesis, Bool.or_eq_true, decide_eq_true_eq] at h
  rcases h with rfl | rfl <;> decide

/-- Texts with the same bare pieces have the same bare pieces behind one more character. -/
theorem map_bare_split_cons {s s' : List Char} (c : Char)
    (h : (split times s).map bare = (split times s').map bare) :
    (split times (c :: s)).map bare = (split times (c :: s')).map bare := by
  by_cases hc : c = times
  · rw [hc, split_cons_separator, split_cons_separator, List.map_cons, List.map_cons, h]
  · obtain ⟨p, ps, hs⟩ := exists_split_eq_cons times s
    obtain ⟨p', ps', hs'⟩ := exists_split_eq_cons times s'
    rw [hs, hs', List.map_cons, List.map_cons] at h
    obtain ⟨hfirst, hothers⟩ := List.cons_eq_cons.mp h
    have hpayload : withoutParentheses p = withoutParentheses p' := by
      rw [← withoutParentheses_bare p, hfirst, withoutParentheses_bare p']
    rw [split_cons_of_ne hc hs, split_cons_of_ne hc hs', List.map_cons, List.map_cons, bare, bare, hpayload, hothers]

/-- One more parenthesis leaves the bare pieces as they are: the induction is on what stands before it, and ends at
the character which it is behind. -/
theorem map_bare_split_of_insideTerm {before : List Char} {c : Char} (h : InsideTerm before c) (after : List Char) :
    (split times (before ++ c :: after)).map bare = (split times (before ++ after)).map bare := by
  obtain ⟨hc, d, hlast, hd⟩ := h
  induction before with
  | nil => cases hlast
  | cons a before ih =>
    cases before with
    | nil =>
      obtain rfl : a = d := Option.some.inj hlast
      obtain ⟨p, ps, hafter⟩ := exists_split_eq_cons times after
      have hbehind := split_cons_of_ne (ne_times_of_isParenthesis hc) hafter
      have hbare : bare (a :: c :: p) = bare (a :: p) := by simp [bare, ← filter_isParenthesis, hc]
      show (split times (a :: c :: after)).map bare = (split times (a :: after)).map bare
      rw [split_cons_of_ne hd hbehind, split_cons_of_ne hd hafter, List.map_cons, List.map_cons, hbare]
    | cons b before =>
      rw [List.getLast?_cons_cons] at hlast
      exact map_bare_split_cons a (ih hlast)

/-! ### Bare terms of texts -/

theorem ne_nil_of_insideTerm {before : List Char} {c : Char} (h : InsideTerm before c) : before ≠ [] := by
  rintro rfl
  obtain ⟨-, d, hlast, -⟩ := h
  cases hlast

theorem terms_of_no_blank {s : List Char} (h : s.filter isBlank = []) :
    terms s = if s.isEmpty then [] else split times s := by
  have hkept : withoutBlanks s = s := by
    simpa [withoutBlanks, List.filter_eq_self] using h
  rw [terms, hkept]

/-- Parentheses inside terms leave the bare terms as they are. -/
theorem map_bare_terms {s s' : List Char} (h : EqvGen (Insertion InsideTerm) s s') (hs : s.filter isBlank = []) :
    (terms s').map bare = (terms s).map bare := by
  have hsplit : (split times s).map bare = (split times s').map bare :=
    eq_of_insertions (f := fun s => (split times s).map bare) (fun hc => map_bare_split_of_insideTerm hc _) h
  have hempty : s.isEmpty = s'.isEmpty := by
    refine eq_of_insertions (fun hc => ?_) h
    obtain ⟨first, rest, rfl⟩ := List.exists_cons_of_ne_nil (ne_nil_of_insideTerm hc)
    rfl
  have hblanks : s.filter isBlank = s'.filter isBlank :=
    eq_of_insertions (fun hc => by simp [isBlank_of_isParenthesis hc.1]) h
  rw [terms_of_no_blank hs, terms_of_no_blank (hblanks ▸ hs), ← hempty]
  split
  · rfl
  · exact hsplit.symm

/-! ### Rejected terms -/

/-- The term with index `i` is the first that stands for no operation, and `r` reports it. -/
def RejectedAt (s : String) (i : Nat) (r : RejectedTerm) : Prop :=
  ∃ good bad rest, terms s.toList = good ++ bad :: rest ∧ good.length = i ∧ (∀ t ∈ good, ∃ op, Term t op) ∧
    (¬ ∃ op, Term bad op) ∧ r = ⟨defect bad, String.ofList bad⟩

theorem operations_eq_error_iff {s : String} {r : RejectedTerm} :
    operations s = .error r ↔ ∃ i, RejectedAt s i r := by
  rw [operations, readTerms_eq_error_iff]
  constructor
  · rintro ⟨good, bad, rest, hterms, hgood, hbad, hr⟩
    exact ⟨good.length, good, bad, rest, hterms, rfl, hgood, hbad, hr⟩
  · rintro ⟨i, good, bad, rest, hterms, -, hgood, hbad, hr⟩
    exact ⟨good, bad, rest, hterms, hgood, hbad, hr⟩

theorem operations_eq_ok_iff_bare {s : String} {ops : List (Operation Binary64)} :
    operations s = .ok ops ↔ List.Forall₂ Term ((terms s.toList).map bare) ops := by
  simp only [operations, readTerms_eq_ok_iff, List.forall₂_map_left_iff, term_bare_iff]

/-- Bare terms tell which term is rejected, why, and what it is without its parentheses. -/
theorem RejectedAt.of_map_bare {s s' : String} {i : Nat} {r : RejectedTerm} (h : RejectedAt s i r)
    (hbare : (terms s'.toList).map bare = (terms s.toList).map bare) :
    ∃ r', RejectedAt s' i r' ∧ r'.why = r.why ∧ bare r'.term.toList = bare r.term.toList := by
  obtain ⟨good, bad, rest, hterms, rfl, hgood, hbad, rfl⟩ := h
  rw [hterms, List.map_append, List.map_cons] at hbare
  obtain ⟨good', others, hterms', hgood', hothers⟩ := List.map_eq_append_iff.mp hbare
  obtain ⟨bad', rest', rfl, hbad', -⟩ := List.map_eq_cons_iff.mp hothers
  have hlength : good'.length = good.length := by simpa using congrArg List.length hgood'
  have hreads : ∀ t ∈ good', ∃ op, Term t op := by
    have hmapped : ∀ t ∈ good.map bare, ∃ op, Term t op := by
      simpa only [List.forall_mem_map, term_bare_iff] using hgood
    simpa only [← hgood', List.forall_mem_map, term_bare_iff] using hmapped
  have hno : ¬ ∃ op, Term bad' op := by
    simpa only [← term_bare_iff (t := bad'), hbad', term_bare_iff] using hbad
  refine ⟨⟨defect bad', String.ofList bad'⟩, ⟨good', bad', rest', hterms', hlength, hreads, hno, rfl⟩, ?_, ?_⟩
  · rw [← defect_bare bad', hbad', defect_bare]
  · rw [String.toList_ofList, String.toList_ofList, hbad']

/-! ### Any number of them -/

theorem operations_eq_of_blanks {s s' : String} (h : EqvGen (Insertion fun _ c => isBlank c = true) s.toList s'.toList) :
    operations s' = operations s := by
  have hkept : withoutBlanks s.toList = withoutBlanks s'.toList :=
    eq_of_insertions (fun hc => by simp [withoutBlanks, hc]) h
  rw [operations, operations, terms, terms, hkept]

/-- **Stray characters**: texts that differ in blanks only, wherever they stand, are read alike, whether they are
accepted or not. Texts without blanks that differ only in parentheses behind the first characters of their terms stand
for the same operations, or the term with the same index is rejected in both for the same reason; the two reports show
the same bare term. -/
theorem stray_characters :
    (∀ s s' : String, EqvGen (Insertion fun _ c => isBlank c = true) s.toList s'.toList →
      operations s' = operations s) ∧
    ∀ s s' : String, (∀ c ∈ s.toList, isBlank c = false) → EqvGen (Insertion InsideTerm) s.toList s'.toList →
      (∃ ops, operations s = .ok ops ∧ operations s' = .ok ops) ∨
      ∃ i r r', operations s = .error r ∧ operations s' = .error r' ∧ RejectedAt s i r ∧ RejectedAt s' i r' ∧
        r'.why = r.why ∧ bare r'.term.toList = bare r.term.toList := by
  refine ⟨fun _ _ => operations_eq_of_blanks, ?_⟩
  intro s s' hs h
  have hbare := map_bare_terms h (List.filter_eq_nil_iff.mpr fun c hc => by simp [hs c hc])
  cases hread : operations s with
  | ok ops =>
    refine .inl ⟨ops, rfl, ?_⟩
    rwa [operations_eq_ok_iff_bare, hbare, ← operations_eq_ok_iff_bare]
  | error r =>
    obtain ⟨i, hat⟩ := operations_eq_error_iff.mp hread
    obtain ⟨r', hat', hwhy, hterm⟩ := hat.of_map_bare hbare
    exact .inr ⟨i, r, r', rfl, operations_eq_error_iff.mpr ⟨i, hat'⟩, hat, hat', hwhy, hterm⟩

/-- Two blanks put into a text; a parenthesis put into its first term and one taken from its second, which is rejected
because it begins with a parenthesis. -/
theorem blanks_and_parentheses_in_rejected_text :
    (EqvGen (Insertion fun _ c => isBlank c = true) "S(1,2)*(R(5)".toList "S(1,2) *(R(\t5)".toList ∧
      operations "S(1,2) *(R(\t5)" = operations "S(1,2)*(R(5)") ∧
    ((∀ c ∈ "S1,2*(R(5)".toList, isBlank c = false) ∧
      EqvGen (Insertion InsideTerm) "S1,2*(R(5)".toList "S(1,2*(R5)".toList ∧
      operations "S1,2*(R(5)" = .error ⟨.unknownOperation, "(R(5)"⟩ ∧
      ∃ i r', RejectedAt "S1,2*(R(5)" i ⟨.unknownOperation, "(R(5)"⟩ ∧ operations "S(1,2*(R5)" = .error r' ∧
        RejectedAt "S(1,2*(R5)" i r' ∧ r'.why = .unknownOperation ∧ bare r'.term.toList = "(R5".toList) := by
  obtain ⟨hblanks, hparentheses⟩ := stray_characters
  have hspace : Insertion (fun _ c => isBlank c = true) "S(1,2)*(R(5)".toList "S(1,2) *(R(5)".toList :=
    @Insertion.put _ _ "S(1,2)".toList "*(R(5)".toList ' ' (by decide)
  have htab : Insertion (fun _ c => isBlank c = true) "S(1,2) *(R(5)".toList "S(1,2) *(R(\t5)".toList :=
    @Insertion.put _ _ "S(1,2) *(R(".toList "5)".toList '\t' (by decide)
  have htext : EqvGen (Insertion fun _ c => isBlank c = true) "S(1,2)*(R(5)".toList "S(1,2) *(R(\t5)".toList :=
    .trans _ _ _ (.rel _ _ hspace) (.rel _ _ htab)
  have hremoved : Insertion InsideTerm "S1,2*(R5)".toList "S1,2*(R(5)".toList :=
    @Insertion.put _ _ "S1,2*(R".toList "5)".toList '(' ⟨by decide, 'R', by decide, by decide⟩
  have hput : Insertion InsideTerm "S1,2*(R5)".toList "S(1,2*(R5)".toList :=
    @Insertion.put _ _ "S".toList "1,2*(R5)".toList '(' ⟨by decide, 'S', by decide, by decide⟩
  have hterms : EqvGen (Insertion InsideTerm) "S1,2*(R(5)".toList "S(1,2*(R5)".toList :=
    .trans _ _ _ (.symm _ _ (.rel _ _ hremoved)) (.rel _ _ hput)
  have hrejected : operations "S1,2*(R(5)" = .error ⟨.unknownOperation, "(R(5)"⟩ := by decide +kernel
  have hall : ("S1,2*(R(5)".toList.all fun c => !isBlank c) = true := by decide
  have hno : ∀ c ∈ "S1,2*(R(5)".toList, isBlank c = false := fun c hc => by
    simpa using List.all_eq_true.mp hall c hc
  refine ⟨⟨htext, hblanks _ _ htext⟩, hno, hterms, hrejected, ?_⟩
  rcases hparentheses _ _ hno hterms with ⟨ops, hread, -⟩ | ⟨i, r, r', hread, hread', hat, hat', hwhy, hterm⟩
  · cases hrejected.symm.trans hread
  · obtain rfl := Except.error.inj (hrejected.symm.trans hread)
    exact ⟨i, r', hat, hread', hat', hwhy, hterm⟩

end PlaneSketch.TransformText
