import PlaneSketch.Proofs.Operation.Meaning
import PlaneSketch.Proofs.Text.Pieces

/-!
# Joining transformation texts

Two texts with a `*` between them are read as one text after the other, and their operations compose as those of
the second text and then those of the first. A blank text is nothing on its own, but beside a `*` it is an empty
term, which is rejected.

* `operations_join`: what two texts are together, blank or not.
* `composeOperations_append`, `composeOperations_append_exact`: how two lists of operations compose, rounded and
  exact.
* `join_eq_append`: all of this.
-/

namespace PlaneSketch

/-! ### Composing one list after another -/

section Composition

variable {K : Type} [Zero K] [One K] [Neg K] [Add K] [Mul K] [BEq K] [SelfEqualUnits K] [Reported K]

/-- The operations of the first list are put after the transform of the second one, from the last to the first. -/
theorem composeOperations_append (direction : K → K × K) (ops₁ ops₂ : List (Operation K)) :
    composeOperations direction (ops₁ ++ ops₂) = composeOperations direction ops₂ >>= fun t =>
      ops₁.reverse.foldlM (fun u op => Transform.compose u (op.toTransform direction)) t := by
  rw [composeOperations, List.reverse_append, List.foldlM_append]
  rfl

end Composition

/-- With exact arithmetic two lists of operations compose as the second one and then the first one. -/
theorem composeOperations_append_exact {K : Type} [CommRing K] [DecidableEq K] [Reported K] (direction : K → K × K)
    (ops₁ ops₂ : List (Operation K)) :
    ∃ t₁ t₂ t, composeOperations direction ops₁ = .ok t₁ ∧ composeOperations direction ops₂ = .ok t₂ ∧
      Transform.compose t₂ t₁ = .ok t ∧ composeOperations direction (ops₁ ++ ops₂) = .ok t := by
  refine ⟨_, _, _, composeOperations_eq_prod direction ops₁, composeOperations_eq_prod direction ops₂,
    Transform.after_eq_ok _ _, ?_⟩
  rw [composeOperations_eq_prod, List.map_append, List.prod_append]

namespace TransformText

open Text

/-! ### Reading one list of terms after another -/

theorem readTerms_append (ts us : List (List Char)) :
    readTerms (ts ++ us) = readTerms ts >>= fun ops₁ => (readTerms us).map (ops₁ ++ ·) := by
  induction ts with
  | nil => cases h : readTerms us <;> simp [readTerms, h, Except.map, bind, Except.bind]
  | cons t ts ih =>
    rw [List.cons_append, readTerms, readTerms, ih]
    cases readTerm t with
    | error why => rfl
    | ok op => cases readTerms ts <;> cases readTerms us <;> rfl

/-! ### Blank texts -/

/-- Nothing but blanks. -/
def Blank (s : String) : Prop := ∀ c ∈ s.toList, isBlank c = true

instance (s : String) : Decidable (Blank s) := List.decidableBAll (fun c => isBlank c = true) s.toList

theorem blank_iff {s : String} : Blank s ↔ withoutBlanks s.toList = [] := by
  simp [Blank, withoutBlanks, List.filter_eq_nil_iff]

theorem withoutBlanks_join (s t : String) :
    withoutBlanks (s ++ "*" ++ t).toList = withoutBlanks s.toList ++ times :: withoutBlanks t.toList := by
  have htimes : isBlank times = false := by decide
  have hlist : (s ++ "*" ++ t).toList = s.toList ++ times :: t.toList := by
    simp [String.toList_append, times]
  simp [hlist, withoutBlanks, htimes]

/-- The terms of a text beside a `*`: those of the text itself, or the empty term if it is blank. -/
theorem split_withoutBlanks (s : String) :
    (Blank s → split times (withoutBlanks s.toList) = [[]]) ∧
    (¬ Blank s → split times (withoutBlanks s.toList) = terms s.toList) := by
  rw [blank_iff]
  constructor
  · intro h
    rw [h]
    rfl
  · intro h
    simp [terms, h]

/-- The operations of a text beside a `*`. -/
def operationsOfPart (s : String) : Except RejectedTerm (List (Operation Binary64)) :=
  readTerms (split times (withoutBlanks s.toList))

theorem operationsOfPart_of_blank {s : String} (h : Blank s) :
    operationsOfPart s = .error ⟨.unknownOperation, ""⟩ := by
  rw [operationsOfPart, (split_withoutBlanks s).1 h]
  rfl

theorem operationsOfPart_of_not_blank {s : String} (h : ¬ Blank s) : operationsOfPart s = operations s := by
  rw [operationsOfPart, (split_withoutBlanks s).2 h, operations]

theorem operations_of_blank {s : String} (h : Blank s) : operations s = .ok [] := by
  rw [blank_iff] at h
  simp [operations, terms, h, readTerms]

/-- Two texts with a `*` between them are read one after the other. -/
theorem operations_join (s t : String) :
    operations (s ++ "*" ++ t) =
      operationsOfPart s >>= fun ops₁ => (operationsOfPart t).map (ops₁ ++ ·) := by
  have hne : withoutBlanks (s ++ "*" ++ t).toList ≠ [] := by
    rw [withoutBlanks_join]
    simp
  rw [operations, terms]
  simp only [List.isEmpty_iff, if_neg hne]
  rw [withoutBlanks_join, split_append, readTerms_append]
  rfl

/-- **Joining** two texts with a `*` joins their operations, the first rejected term being reported; a blank
text on either side is an empty term. The joined operations compose as those of the first text put, from the
last to the first, after the transform of the second text; with exact arithmetic that is the transform of the
second text and then that of the first. -/
theorem join_eq_append (s₁ s₂ : String) :
    (∀ r, operations s₁ = .error r → operations (s₁ ++ "*" ++ s₂) = .error r) ∧
    (∀ ops₁ r, ¬ Blank s₁ → ¬ Blank s₂ → operations s₁ = .ok ops₁ → operations s₂ = .error r →
      operations (s₁ ++ "*" ++ s₂) = .error r) ∧
    (∀ ops₁ ops₂, ¬ Blank s₁ → ¬ Blank s₂ → operations s₁ = .ok ops₁ → operations s₂ = .ok ops₂ →
      operations (s₁ ++ "*" ++ s₂) = .ok (ops₁ ++ ops₂)) ∧
    (Blank s₁ → operations (s₁ ++ "*" ++ s₂) = .error ⟨.unknownOperation, ""⟩) ∧
    (∀ ops₁, operations s₁ = .ok ops₁ → Blank s₂ →
      operations (s₁ ++ "*" ++ s₂) = .error ⟨.unknownOperation, ""⟩) ∧
    (∀ ops₁ ops₂ : List (Operation Binary64),
      Operation.composed (ops₁ ++ ops₂) = Operation.composed ops₂ >>= fun t =>
        ops₁.reverse.foldlM (fun u op => Transform.compose u op.transform) t) ∧
    ∀ (K : Type) [CommRing K] [DecidableEq K] [Reported K] (direction : K → K × K) (ops₁ ops₂ : List (Operation K)),
      ∃ t₁ t₂ t, composeOperations direction ops₁ = .ok t₁ ∧ composeOperations direction ops₂ = .ok t₂ ∧
        Transform.compose t₂ t₁ = .ok t ∧ composeOperations direction (ops₁ ++ ops₂) = .ok t := by
  rw [operations_join]
  refine ⟨?_, ?_, ?_, ?_, ?_, composeOperations_append Binary64.direction,
    fun K _ _ _ direction => composeOperations_append_exact direction⟩
  · intro r h
    have hblank : ¬ Blank s₁ := fun hb => by simp [operations_of_blank hb] at h
    rw [operationsOfPart_of_not_blank hblank, h]
    rfl
  · intro ops₁ r hb₁ hb₂ h₁ h₂
    rw [operationsOfPart_of_not_blank hb₁, operationsOfPart_of_not_blank hb₂, h₁, h₂]
    rfl
  · intro ops₁ ops₂ hb₁ hb₂ h₁ h₂
    rw [operationsOfPart_of_not_blank hb₁, operationsOfPart_of_not_blank hb₂, h₁, h₂]
    rfl
  · intro hb
    rw [operationsOfPart_of_blank hb]
    rfl
  · intro ops₁ h₁ hb
    rw [operationsOfPart_of_blank hb]
    -- where both are blank, the first of two empty terms is reported
    by_cases hb₁ : Blank s₁
    · rw [operationsOfPart_of_blank hb₁]
      rfl
    · rw [operationsOfPart_of_not_blank hb₁, h₁]
      rfl

/-- A scaling beside a shift; a rejected term on either side; a blank text on either side. -/
theorem join_scale_and_shift :
    operations ("S(2,2)" ++ "*" ++ "T(1,0)") = .ok [.scale 2 2, .translate 1 0] ∧
    operations ("S(2)" ++ "*" ++ "X") = .error ⟨.argumentCount, "S(2)"⟩ ∧
    operations ("S(2,2)" ++ "*" ++ " R(a) ") = .error ⟨.notANumber, "R(a)"⟩ ∧
    operations ("\t" ++ "*" ++ "T(1,0)") = .error ⟨.unknownOperation, ""⟩ ∧
    operations ("S(2,2)" ++ "*" ++ "") = .error ⟨.unknownOperation, ""⟩ := by
  have hscale : operations "S(2,2)" = .ok [.scale 2 2] := by decide +kernel
  have hshift : operations "T(1,0)" = .ok [.translate 1 0] := by decide +kernel
  refine ⟨?_, ?_, ?_, ?_, ?_⟩
  · exact (join_eq_append _ _).2.2.1 _ _ (by decide) (by decide) hscale hshift
  · exact (join_eq_append _ _).1 _ (by decide +kernel)
  · exact (join_eq_append _ _).2.1 _ _ (by decide) (by decide) hscale (by decide +kernel)
  · exact (join_eq_append _ _).2.2.2.1 (by decide)
  · exact (join_eq_append _ _).2.2.2.2.1 _ hscale (by decide)

end TransformText

end PlaneSketch
