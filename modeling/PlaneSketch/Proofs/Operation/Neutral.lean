import PlaneSketch.Proofs.Binary64.Direction
import PlaneSketch.Proofs.Insertion
import PlaneSketch.Proofs.Transform.Identity
import PlaneSketch.Proofs.TransformText.RoundTrip

/-!
# Neutral operations

A scaling by one, a shift by zero and a turn by zero are the identity up to the signs of zeros. Put anywhere into a
list of operations they leave what it composes to equal in value, provided that nothing leaves the finite range on
the way. A difference in the signs of zeros reaches no further than to the next product, which does not depend on
them.

* `Neutral.alike_identity`: a neutral operation.
* `exists_composed_cons_neutral`: a neutral operation in front of others.
* `composeAlike_of_insertion`, `composeAlike_of_insertions`: one of them anywhere, and any number of them.
* `neutral_operations`: the identity in products, neutral operations in lists, and neutral terms in texts.
-/

namespace PlaneSketch.Operation

open Binary64 Transform Relation

variable {op : Operation Binary64} {ops ops' : List (Operation Binary64)}

/-- The operations that keep every point; their zeros may have either sign. -/
inductive Neutral : Operation Binary64 → Prop
  | scale : Neutral (.scale 1 1)
  | translate {x y} : IsZero x → IsZero y → Neutral (.translate x y)
  | rotate {x} : IsZero x → Neutral (.rotate x)

theorem Neutral.alike_identity (h : op.Neutral) :
    op.transform.matrix.Alike (identity : Transform Binary64).matrix := by
  cases h with
  | scale => exact .refl _
  | translate hx hy =>
    exact ⟨⟨.refl 1, .refl 0, .inr ⟨hx, isZero_zero⟩⟩, ⟨.refl 0, .refl 1, .inr ⟨hy, isZero_zero⟩⟩, .refl _⟩
  | rotate hx =>
    obtain ⟨hco, hsi⟩ := direction_of_isZero hx
    exact ⟨⟨.inl hco, .inr ⟨hsi.neg, isZero_zero⟩, .refl 0⟩, ⟨.inr ⟨hsi, isZero_zero⟩, .inl hco, .refl 0⟩, .refl _⟩

/-- The transform of an operation with finite numbers is finite. -/
theorem isFinite_transform (h : ∀ x ∈ op.parameters, x.isFinite = true) : op.transform.isFinite = true := by
  have hzero := isFinite_of_isZero isZero_zero
  cases op with
  | scale sx sy =>
    obtain ⟨hx, hy⟩ : sx.isFinite = true ∧ sy.isFinite = true := by simpa [parameters] using h
    simp [transform, toTransform, scaling, isFinite_ofCoefficients, hzero, hx, hy]
  | translate tx ty =>
    obtain ⟨hx, hy⟩ : tx.isFinite = true ∧ ty.isFinite = true := by simpa [parameters] using h
    simp [transform, toTransform, translation, isFinite_ofCoefficients, hzero, isFinite_one, hx, hy]
  | rotate degrees =>
    obtain ⟨hco, hsi⟩ := isFinite_direction (h degrees (by simp [parameters]))
    simp [transform, toTransform, turn, isFinite_ofCoefficients, hzero, hco, hsi, isFinite_neg]

/-! ### Neutral operations in a list -/

/-- The operations compose to a finite transform. -/
def ComposesFinite (ops : List (Operation Binary64)) : Prop := ∃ t, composed ops = .ok t ∧ t.isFinite = true

/-- Nothing leaves the finite range when the operations are composed one by one, from the last to the first. -/
def StaysFinite (ops : List (Operation Binary64)) : Prop := ∀ suffix, suffix <:+ ops → ComposesFinite suffix

theorem staysFinite_cons_iff : StaysFinite (op :: ops) ↔ ComposesFinite (op :: ops) ∧ StaysFinite ops := by
  simp only [StaysFinite, List.suffix_cons_iff, forall_eq_or_imp]

theorem staysFinite_nil : StaysFinite [] := by
  intro suffix h
  rw [List.suffix_nil.mp h]
  exact ⟨identity, rfl, isFinite_identity⟩

theorem StaysFinite.composesFinite (h : StaysFinite ops) : ComposesFinite ops := h ops List.suffix_rfl

/-- In front of operations that compose to a finite transform a neutral one changes signs of zeros only. -/
theorem exists_composed_cons_neutral {t : Transform Binary64} (hop : op.Neutral) (ht : composed ops = .ok t)
    (hfin : t.isFinite = true) : ∃ w, composed (op :: ops) = .ok w ∧ w.matrix.Alike t.matrix := by
  obtain ⟨w, hw, halike⟩ := exists_identity_after hfin
  refine ⟨w, ?_, halike⟩
  calc composed (op :: ops) = op.transform.after t := by rw [composed_cons, ht]; rfl
    _ = identity.after t := after_left_of_alike hop.alike_identity t
    _ = .ok w := hw

/-- The two lists compose to transforms that differ in the signs of zeros only. -/
def ComposeAlike (ops ops' : List (Operation Binary64)) : Prop :=
  ∃ t t', composed ops = .ok t ∧ composed ops' = .ok t' ∧ t'.matrix.Alike t.matrix

/-- What is put in front of both makes the same of them. -/
theorem ComposeAlike.cons (h : ComposeAlike ops ops') (op : Operation Binary64) :
    composed (op :: ops') = composed (op :: ops) := by
  obtain ⟨t, t', ht, ht', halike⟩ := h
  rw [composed_cons, composed_cons, ht, ht']
  exact after_right_of_alike halike op.transform

/-- One neutral operation more, anywhere: the induction is on the operations that stand before it. -/
theorem composeAlike_of_insertion (h : Insertion (fun _ => Neutral) ops ops') (hfin : StaysFinite ops) :
    ComposeAlike ops ops' ∧ StaysFinite ops' := by
  obtain @⟨before, after, op, hop⟩ := h
  induction before with
  | nil =>
    obtain ⟨t, ht, htfin⟩ := hfin.composesFinite
    obtain ⟨w, hw, halike⟩ := exists_composed_cons_neutral hop ht htfin
    have hwfin : w.isFinite = true := (isFinite_eq_of_alike halike).trans htfin
    exact ⟨⟨t, w, ht, hw, halike⟩, staysFinite_cons_iff.mpr ⟨⟨w, hw, hwfin⟩, hfin⟩⟩
  | cons first before ih =>
    obtain ⟨⟨t, ht, htfin⟩, hrest⟩ := staysFinite_cons_iff.mp hfin
    obtain ⟨hshort, hlong⟩ := ih hrest
    have hsame : composed (first :: (before ++ op :: after)) = .ok t := (hshort.cons first).trans ht
    exact ⟨⟨t, t, ht, hsame, .refl _⟩, staysFinite_cons_iff.mpr ⟨⟨t, hsame, htfin⟩, hlong⟩⟩

/-- Any number of neutral operations more. -/
theorem composeAlike_of_insertions (h : ReflTransGen (Insertion fun _ => Neutral) ops ops') (hfin : StaysFinite ops) :
    ComposeAlike ops ops' ∧ StaysFinite ops' := by
  induction h with
  | refl =>
    obtain ⟨t, ht, -⟩ := hfin.composesFinite
    exact ⟨⟨t, t, ht, ht, .refl _⟩, hfin⟩
  | tail _ hstep ih =>
    obtain ⟨⟨t, u, ht, hu, htu⟩, hfin'⟩ := ih
    obtain ⟨⟨u', w, hu', hw, huw⟩, hfin''⟩ := composeAlike_of_insertion hstep hfin'
    obtain rfl := Except.ok.inj (hu.symm.trans hu')
    exact ⟨⟨t, w, ht, hw, huw.trans htu⟩, hfin''⟩

theorem beq_of_insertions (h : ReflTransGen (Insertion fun _ => Neutral) ops ops') (hfin : StaysFinite ops) :
    ∃ t t', composed ops = .ok t ∧ composed ops' = .ok t' ∧ (t' == t) = true := by
  obtain ⟨⟨t, t', ht, ht', halike⟩, -⟩ := composeAlike_of_insertions h hfin
  obtain ⟨u, hu, hufin⟩ := hfin.composesFinite
  obtain rfl := Except.ok.inj (ht.symm.trans hu)
  exact ⟨t, t', ht, ht', beq_of_alike halike hufin⟩

/-! ### A single operation among neutral ones -/

theorem composed_singleton (op : Operation Binary64) : composed [op] = op.transform.after identity := by
  rw [composed_cons]
  rfl

theorem exists_composed_singleton (hfin : op.transform.isFinite = true) :
    ∃ t, composed [op] = .ok t ∧ t.matrix.Alike op.transform.matrix := by
  obtain ⟨t, ht, hequal⟩ := exists_after_identity op.transform
  exact ⟨t, (composed_singleton op).trans ht, alike_of_beq (hequal.mpr hfin)⟩

theorem staysFinite_singleton (hfin : op.transform.isFinite = true) : StaysFinite [op] := by
  obtain ⟨t, ht, halike⟩ := exists_composed_singleton hfin
  exact staysFinite_cons_iff.mpr ⟨⟨t, ht, (isFinite_eq_of_alike halike).trans hfin⟩, staysFinite_nil⟩

theorem insertions_around {u v : List (Operation Binary64)} (h : ∀ n ∈ u ++ v, Neutral n) (op : Operation Binary64) :
    ReflTransGen (Insertion fun _ => Neutral) [op] (u ++ op :: v) := by
  obtain ⟨hu, hv⟩ := List.forall_mem_append.mp h
  have hbehind : ReflTransGen (Insertion fun _ => Neutral) [op] ([op] ++ v) := by
    simpa using insertions_of_forall hv [op] []
  exact hbehind.trans (insertions_of_forall hu [] (op :: v))

/-- Among neutral operations the only other one composes to its own transform. -/
theorem exists_composed_around {u v : List (Operation Binary64)} (h : ∀ n ∈ u ++ v, Neutral n)
    (hfin : op.transform.isFinite = true) :
    ∃ t, composed (u ++ op :: v) = .ok t ∧ (t == op.transform) = true := by
  obtain ⟨t, ht, halike⟩ := exists_composed_singleton hfin
  obtain ⟨⟨t', w, ht', hw, halike'⟩, -⟩ :=
    composeAlike_of_insertions (insertions_around h op) (staysFinite_singleton hfin)
  obtain rfl := Except.ok.inj (ht.symm.trans ht')
  exact ⟨w, hw, beq_of_alike (halike'.trans halike) hfin⟩

/-- **Neutral operations**: composing with the identity leaves every finite transform equal in value, on either side;
a transform that is not finite does not compose with the identity behind it, and with the identity in front of it the
product is not equal to it. Where nothing leaves the finite range, a list of operations composes to a transform that
stays equal in value when neutral operations are put in anywhere, as many as one likes. In particular a text in which
all terms but one are neutral stands for the transform of that one. -/
theorem neutral_operations :
    (∀ t : Transform Binary64, t.isFinite = true →
      (∃ w, compose identity t = .ok w ∧ (w == t) = true) ∧ ∃ w, compose t identity = .ok w ∧ (w == t) = true) ∧
    (∀ t : Transform Binary64, t.isFinite = false →
      compose t identity = .error (.lastRow t.refusedRow) ∧ ∃ w, compose identity t = .ok w ∧ (w == t) = false) ∧
    (∀ ops ops' : List (Operation Binary64), StaysFinite ops →
      ReflTransGen (Insertion fun _ => Neutral) ops ops' →
      ∃ t t', composed ops = .ok t ∧ composed ops' = .ok t' ∧ (t' == t) = true) ∧
    ∀ (s : String) (u v : List (Operation Binary64)) (op : Operation Binary64),
      TransformText.operations s = .ok (u ++ op :: v) → (∀ n ∈ u ++ v, Neutral n) →
      ∃ t, TransformText.read s = .ok (.ok t) ∧ (t == op.transform) = true := by
  refine ⟨?_, ?_, fun _ _ hfin h => beq_of_insertions h hfin, ?_⟩
  · intro t ht
    obtain ⟨w, hw, hequal⟩ := exists_after_identity t
    obtain ⟨w', hw', halike⟩ := exists_identity_after ht
    exact ⟨⟨w, hw, hequal.mpr ht⟩, w', hw', beq_of_alike halike ht⟩
  · intro t ht
    obtain ⟨w, hw, hequal⟩ := exists_after_identity t
    have hdiffers : (w == t) = false := by
      rw [← Bool.not_eq_true, hequal, ht]
      exact Bool.false_ne_true
    exact ⟨after_eq_error_iff.mpr ⟨ht, rfl⟩, w, hw, hdiffers⟩
  · intro s u v op hops hneutral
    have hfinite := TransformText.isFinite_of_operations hops op (by simp)
    obtain ⟨t, ht, hequal⟩ := exists_composed_around hneutral (isFinite_transform hfinite)
    refine ⟨t, ?_, hequal⟩
    rw [TransformText.read, hops, ← ht]
    rfl

/-- A shift, and a scaling that overflows; a turn by a negative zero and two more neutral operations around a scaling
and in front of a shift; and the same operations in a text. -/
theorem scale_among_neutral_terms :
    let shift : Transform Binary64 := translation 3 4
    let wide : Transform Binary64 := scaling (.infinite false) 1
    let ops : List (Operation Binary64) := [.scale 2 2, .translate 1 0]
    let ops' : List (Operation Binary64) :=
      [.rotate negZero, .scale 2 2, .translate 0 negZero, .scale 1 1, .translate 1 0]
    (shift.isFinite = true ∧ ∃ w, compose identity shift = .ok w ∧ (w == shift) = true) ∧
    (wide.isFinite = false ∧ compose wide identity = .error (.lastRow ⟨nan, 0, 1⟩)) ∧
    (StaysFinite ops ∧ ReflTransGen (Insertion fun _ => Neutral) ops ops' ∧
      ∃ t t', composed ops = .ok t ∧ composed ops' = .ok t' ∧ (t' == t) = true) ∧
    (TransformText.operations "R(-0)*S(2,2)*T(0,-0)*S(1,1)" =
      .ok [.rotate negZero, .scale 2 2, .translate 0 negZero, .scale 1 1] ∧
      ∃ t, TransformText.read "R(-0)*S(2,2)*T(0,-0)*S(1,1)" = .ok (.ok t) ∧ (t == scaling 2 2) = true) := by
  intro shift wide ops ops'
  obtain ⟨hfinite, hinfinite, hlists, htexts⟩ := neutral_operations
  have hshift : shift.isFinite = true := by decide +kernel
  have hwide : wide.isFinite = false := by decide +kernel
  have hrow : wide.refusedRow = ⟨nan, 0, 1⟩ := by decide +kernel
  have hturn : Neutral (.rotate negZero) := .rotate isZero_negZero
  have hrest : ∀ n ∈ [.translate 0 negZero, .scale 1 1], Neutral n := by
    simp [Neutral.scale, Neutral.translate isZero_zero isZero_negZero]
  have hops : StaysFinite ops := by
    have hlast : (translation 1 0 : Transform Binary64).isFinite = true := by decide +kernel
    exact staysFinite_cons_iff.mpr ⟨⟨ofCoefficients 2 0 0 2 2 0, by decide +kernel⟩, staysFinite_singleton hlast⟩
  have hinsertions : ReflTransGen (Insertion fun _ => Neutral) ops ops' :=
    (insertions_of_forall hrest [.scale 2 2] [.translate 1 0]).tail (@Insertion.put _ _ [] _ _ hturn)
  have htext : TransformText.operations "R(-0)*S(2,2)*T(0,-0)*S(1,1)" =
      .ok [.rotate negZero, .scale 2 2, .translate 0 negZero, .scale 1 1] := by decide +kernel
  exact ⟨⟨hshift, (hfinite shift hshift).1⟩, ⟨hwide, hrow ▸ (hinfinite wide hwide).1⟩,
    ⟨hops, hinsertions, hlists ops ops' hops hinsertions⟩, htext,
    htexts _ [.rotate negZero] [.translate 0 negZero, .scale 1 1] (.scale 2 2) htext
      (List.forall_mem_cons.mpr ⟨hturn, hrest⟩)⟩

end PlaneSketch.Operation
