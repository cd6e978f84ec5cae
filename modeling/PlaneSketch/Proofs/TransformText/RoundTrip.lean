import PlaneSketch.Proofs.Decimal.Layout
import PlaneSketch.Proofs.TransformText.Grammar

/-!
# Reading what was written

Operations whose numbers are finite are written so that reading gives back the same list, every number to the
last bit. The numbers are literals, and the characters of literals are neither blanks nor parentheses nor
separators, so that a written text falls apart into just the terms and arguments it was put together from.
Reading yields finite numbers only, hence what was read can be written and read again.

* `readTerm_writeOperation`: a written operation is read back.
* `isFinite_of_operations`: reading yields finite numbers only.
* `operations_write`: both directions for whole texts, and that no number could be written with fewer digits.
-/

namespace PlaneSketch

/-- The numbers of an operation in the order in which they are written. -/
def Operation.parameters {K : Type} : Operation K → List K
  | scale sx sy => [sx, sy]
  | translate tx ty => [tx, ty]
  | rotate degrees => [degrees]

namespace TransformText

open Text Numeral

/-! ### Letters and numbers -/

/-- The letter with which an operation is written. -/
def letterOf : Operation Binary64 → Char
  | .scale .. => 'S'
  | .translate .. => 'T'
  | .rotate _ => 'R'

/-- Numbers with commas between them. -/
def writeArguments (xs : List Binary64) : List Char := join comma (xs.map fun x => x.text.toList)

theorem writeOperation_eq (op : Operation Binary64) :
    writeOperation op = letterOf op :: '(' :: (writeArguments op.parameters ++ [')']) := by
  cases op <;> rfl

theorem operation?_parameters (op : Operation Binary64) : operation? (letterOf op) op.parameters = some op := by
  cases op <;> rfl

/-! ### The characters of what is written -/

variable {ops : List (Operation Binary64)} {op : Operation Binary64}

/-- The characters of numerals, letters, parentheses and commas. -/
def IsTermChar (c : Char) : Prop := IsNumeralChar c ∨ c ∈ ['S', 'T', 'R', '(', ')', comma]

instance (c : Char) : Decidable (IsTermChar c) := inferInstanceAs (Decidable (_ ∨ _))

theorem isBlank_of_isTermChar {c : Char} (h : IsTermChar c) : isBlank c = false := by
  rcases h with hnumeral | hmark
  · exact isBlank_of_isNumeralChar hnumeral
  · simp only [List.mem_cons, List.not_mem_nil, or_false] at hmark
    rcases hmark with rfl | rfl | rfl | rfl | rfl | rfl <;> decide

theorem ne_times_of_isTermChar {c : Char} (h : IsTermChar c) : c ≠ times := by
  rintro rfl
  exact absurd h (by decide)

theorem isParenthesis_of_isNumeralChar {c : Char} (h : IsNumeralChar c) : isParenthesis c = false := by
  have hopen : c ≠ '(' := by
    rintro rfl
    exact absurd h (by decide)
  have hclose : c ≠ ')' := by
    rintro rfl
    exact absurd h (by decide)
  simp [isParenthesis, hopen, hclose]

theorem isNumeralChar_of_mem_text {x : Binary64} (hx : x.isFinite = true) :
    ∀ c ∈ x.text.toList, IsNumeralChar c := by
  obtain ⟨n, hn, -⟩ := literal_text hx
  exact isNumeralChar_of_spells hn

theorem forall_mem_writeArguments {P : Char → Prop} {xs : List Binary64} (hxs : ∀ x ∈ xs, x.isFinite = true)
    (hcomma : P comma) (hnumeral : ∀ c, IsNumeralChar c → P c) : ∀ c ∈ writeArguments xs, P c := by
  refine forall_mem_join hcomma ?_
  rw [List.forall_mem_map]
  exact fun x hx c hc => hnumeral c (isNumeralChar_of_mem_text (hxs x hx) c hc)

theorem isTermChar_of_mem_writeOperation (hop : ∀ x ∈ op.parameters, x.isFinite = true) :
    ∀ c ∈ writeOperation op, IsTermChar c := by
  have hletter : IsTermChar (letterOf op) := by cases op <;> exact .inr (by simp [letterOf])
  have harguments : ∀ c ∈ writeArguments op.parameters, IsTermChar c :=
    forall_mem_writeArguments hop (by decide) fun _ => .inl
  rw [writeOperation_eq]
  simp only [List.forall_mem_cons, List.forall_mem_append]
  exact ⟨hletter, by decide, harguments, by decide, by simp⟩

/-! ### Reading a written term -/

/-- The arguments of a written term are the texts of its numbers. -/
theorem arguments_write {xs : List Binary64} (hne : xs ≠ []) (hxs : ∀ x ∈ xs, x.isFinite = true) :
    arguments ('(' :: (writeArguments xs ++ [')'])) = xs.map fun x => x.text.toList := by
  have hkept : (writeArguments xs).filter (fun c => !isParenthesis c) = writeArguments xs := by
    refine List.filter_eq_self.mpr fun c hc => ?_
    have hc : isParenthesis c = false :=
      forall_mem_writeArguments hxs (by decide) (fun _ => isParenthesis_of_isNumeralChar) c hc
    rw [hc]
    rfl
  have hpayload :
      ('(' :: (writeArguments xs ++ [')'])).filter (fun c => !isParenthesis c) = writeArguments xs := by
    have hopen : isParenthesis '(' = true := by decide
    have hclose : isParenthesis ')' = true := by decide
    simp [hopen, hclose, hkept]
  have hfree : ∀ s ∈ xs.map fun x => x.text.toList, comma ∉ s := by
    rw [List.forall_mem_map]
    exact fun x hx => comma_not_mem_of_literal (literal_text (hxs x hx))
  rw [arguments, hpayload]
  exact split_join (by simpa using hne) hfree

/-- **A written operation** of finite numbers is read back. -/
theorem readTerm_writeOperation (hop : ∀ x ∈ op.parameters, x.isFinite = true) :
    readTerm (writeOperation op) = .ok op := by
  have hne : op.parameters ≠ [] := by cases op <;> simp [Operation.parameters]
  rw [writeOperation_eq, readTerm_cons_eq_ok_iff]
  refine ⟨op.parameters, ?_, operation?_parameters op⟩
  rw [arguments_write hne hop, List.forall₂_map_left_iff, List.forall₂_same]
  exact fun x hx => literal_text (hop x hx)

/-- The terms of a written text are the written operations. -/
theorem terms_write (hops : ∀ op ∈ ops, ∀ x ∈ op.parameters, x.isFinite = true) :
    terms (write ops).toList = ops.map writeOperation := by
  cases ops with
  | nil => rfl
  | cons op rest =>
    have hchar : ∀ t ∈ (op :: rest).map writeOperation, ∀ c ∈ t, IsTermChar c := by
      rw [List.forall_mem_map]
      exact fun op hop => isTermChar_of_mem_writeOperation (hops op hop)
    have hblanks : withoutBlanks (write (op :: rest)).toList = join times ((op :: rest).map writeOperation) := by
      rw [write, String.toList_ofList]
      refine List.filter_eq_self.mpr fun c hc => ?_
      have hc : isBlank c = false :=
        forall_mem_join (by decide) (fun t ht c hc => isBlank_of_isTermChar (hchar t ht c hc)) c hc
      rw [hc]
      rfl
    have hfree : ∀ t ∈ (op :: rest).map writeOperation, times ∉ t :=
      fun t ht hmem => ne_times_of_isTermChar (hchar t ht _ hmem) rfl
    have hne : join times ((op :: rest).map writeOperation) ≠ [] := by
      cases rest <;> simp [join, writeOperation_eq]
    simp only [terms, hblanks, List.isEmpty_iff, if_neg hne]
    exact split_eq_iff.mpr ⟨by simp, hfree, rfl⟩

/-! ### Reading yields finite numbers -/

theorem isFinite_of_term {t : List Char} (h : Term t op) : ∀ x ∈ op.parameters, x.isFinite = true := by
  cases h with
  | scale _ hs ht => simp [Operation.parameters, hs.isFinite, ht.isFinite]
  | translate _ hs ht => simp [Operation.parameters, hs.isFinite, ht.isFinite]
  | rotate hs => simp [Operation.parameters, hs.isFinite]

/-- The numbers of what is read are finite. -/
theorem isFinite_of_operations {s : String} (h : operations s = .ok ops) :
    ∀ op ∈ ops, ∀ x ∈ op.parameters, x.isFinite = true := by
  have hterms : List.Forall₂ Term (terms s.toList) ops := readTerms_eq_ok_iff.mp h
  generalize terms s.toList = ts at hterms
  clear h
  induction hterms with
  | nil => simp
  | cons hterm _ ih => exact List.forall_mem_cons.mpr ⟨isFinite_of_term hterm, ih⟩

/-! ### Whole texts -/

theorem operations_write_of_isFinite (hops : ∀ op ∈ ops, ∀ x ∈ op.parameters, x.isFinite = true) :
    operations (write ops) = .ok ops := by
  rw [operations, terms_write hops, readTerms_eq_ok_iff, List.forall₂_map_left_iff, List.forall₂_same]
  exact fun op hop => readTerm_eq_ok_iff.mp (readTerm_writeOperation (hops op hop))

/-- **Round trip**: operations with finite numbers are written so that reading gives back the same list, and so
are those of every text that is accepted. No decimal that reads as a number has fewer digits than the one that
is written. -/
theorem operations_write :
    (∀ ops : List (Operation Binary64), (∀ op ∈ ops, ∀ x ∈ op.parameters, x.isFinite = true) →
      operations (write ops) = .ok ops) ∧
    (∀ s ops, operations s = .ok ops → operations (write ops) = .ok ops) ∧
    ∀ negative units h (d : Decimal), d.ReadsAs (.finite negative units h) →
      (Decimal.shortest (.finite negative units h) units).digits.length ≤ d.digits.length := by
  refine ⟨fun ops => operations_write_of_isFinite, ?_, fun _ _ _ _ => Decimal.length_digits_shortest_le⟩
  intro s ops h
  exact operations_write_of_isFinite (isFinite_of_operations h)

/-- A negative zero, the least and the greatest double, an exponent with a leading zero and one without; a text
that is not as it would be written; and the least double in all its digits. -/
theorem write_extremes :
    let ops : List (Operation Binary64) :=
      [.scale (Decimal.toBinary64 true ⟨0, 0⟩) (Decimal.toBinary64 false ⟨5, -324⟩),
        .translate (Decimal.toBinary64 false ⟨17976931348623157, 292⟩) (Decimal.toBinary64 true ⟨1, -5⟩),
        .rotate (Decimal.toBinary64 false ⟨15, 15⟩)]
    let turn : List (Operation Binary64) := [.rotate (Decimal.toBinary64 false ⟨5, 0⟩)]
    write ops = "S(-0.0,5e-324)*T(1.7976931348623157e+308,-1e-05)*R(1.5e+16)" ∧ operations (write ops) = .ok ops ∧
      operations " R)+.50E1 (" = .ok turn ∧ operations (write turn) = .ok turn ∧
      ∃ h, Decimal.ReadsAs (.finite false 1 h) (Decimal.exact 1) ∧
        (Decimal.shortest (.finite false 1 h) 1).digits.length ≤ (Decimal.exact 1).digits.length := by
  have hturn : operations " R)+.50E1 (" = .ok [.rotate (Decimal.toBinary64 false ⟨5, 0⟩)] := by decide +kernel
  have hleast : FitsDouble 1 := ⟨by decide +kernel, by decide +kernel⟩
  have hexact : Decimal.ReadsAs (.finite false 1 hleast) (Decimal.exact 1) := Decimal.exact_readsAs
  exact ⟨by decide +kernel, operations_write.1 _ (by decide +kernel), hturn, operations_write.2.1 _ _ hturn,
    hleast, hexact, operations_write.2.2 false 1 hleast _ hexact⟩

end TransformText

end PlaneSketch
