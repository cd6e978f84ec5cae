import PlaneSketch.Operation
import PlaneSketch.Proofs.Binary64.SignedZero

/-!
# Overflow in composition

In double precision the last row of a product is formed like every other one, so a coefficient of the right factor
that is not finite meets a zero there and makes `nan`. Composing therefore fails exactly if the transform that is
applied first has such a coefficient, whatever the other one is.

* `refusedRow`: the last row of a product.
* `after_eq_error_iff`, `after_eq_ok_iff`: when two transforms do not compose, and to what they do.
* `Operation.composed_eq_error_iff`: a list of operations does not compose exactly if one of its proper tails
  composes to a transform that is not finite.
* `composition_fails_iff`: the same for every way to put transforms together.
-/

namespace PlaneSketch

open Binary64

/-! ### The last row of a product -/

namespace Triple

variable {u v : Triple Binary64}

theorem same_unit_iff : u.same unit = true ↔ IsZero u.x ∧ IsZero u.y ∧ u.z = 1 := by
  simp only [same, unit, Bool.and_eq_true, and_assoc]
  exact and_congr beq_zero_iff (and_congr beq_zero_iff beq_one_iff)

/-- The part of a last row before its last entry makes a zero of two finite entries. -/
theorem isZero_partial_dot (hx : IsZero u.x) (hy : IsZero u.y) (hvx : v.x.isFinite = true)
    (hvy : v.y.isFinite = true) : IsZero (0 + u.x * v.x + u.y * v.y) :=
  (isZero_zero.add (hx.mul hvx)).add (hy.mul hvy)

/-- It makes `nan` as soon as one of them is not finite. -/
theorem dot_eq_nan (hx : IsZero u.x) (hy : IsZero u.y) (hv : (v.x.isFinite && v.y.isFinite) = false) :
    u.dot v = nan := by
  unfold dot
  cases hvx : v.x.isFinite with
  | false => rw [hx.mul_eq_nan hvx, add_nan, nan_add, nan_add]
  | true =>
    have hvy : v.y.isFinite = false := by simpa [hvx] using hv
    rw [hy.mul_eq_nan hvy, add_nan, nan_add]

theorem dot_ne_negZero (u v : Triple Binary64) : u.dot v ≠ negZero :=
  add_ne_negZero (add_ne_negZero (add_ne_negZero zero_ne_negZero _) _) _

/-- A last row makes a zero of a column above a zero, and then the zero without a sign, or `nan`. -/
theorem dot_column (h : u.same unit = true) (hv : IsZero v.z) :
    u.dot v = if v.x.isFinite && v.y.isFinite then 0 else nan := by
  obtain ⟨hx, hy, hz⟩ := same_unit_iff.mp h
  cases hfin : v.x.isFinite && v.y.isFinite with
  | false => exact dot_eq_nan hx hy hfin
  | true =>
    obtain ⟨hvx, hvy⟩ := Bool.and_eq_true_iff.mp hfin
    have hzero : IsZero (u.dot v) := by
      rw [dot, hz, Binary64.one_mul]
      exact (isZero_partial_dot hx hy hvx hvy).add hv
    exact (isZero_iff.mp hzero).resolve_right (dot_ne_negZero u v)

/-- Of a column above a one it makes one, or `nan`. -/
theorem dot_column_one (h : u.same unit = true) (hv : v.z = 1) :
    u.dot v = if v.x.isFinite && v.y.isFinite then 1 else nan := by
  obtain ⟨hx, hy, hz⟩ := same_unit_iff.mp h
  cases hfin : v.x.isFinite && v.y.isFinite with
  | false => exact dot_eq_nan hx hy hfin
  | true =>
    obtain ⟨hvx, hvy⟩ := Bool.and_eq_true_iff.mp hfin
    rw [dot, hz, hv, Binary64.one_mul, (isZero_partial_dot hx hy hvx hvy).add_eq not_isZero_one, if_pos rfl]

end Triple

namespace Transform

variable (t u : Transform Binary64)

theorem isFinite_iff : t.isFinite = true ↔ (t.a.isFinite && t.b.isFinite) = true ∧
    (t.c.isFinite && t.d.isFinite) = true ∧ (t.e.isFinite && t.f.isFinite) = true := by
  simp [isFinite, coefficients, and_assoc]

/-- The last row of every product with the right factor `u`: that of a transform, with `nan` in place of each entry
below a column of `u` that is not finite. -/
def refusedRow : Triple Binary64 where
  x := if t.a.isFinite && t.b.isFinite then 0 else nan
  y := if t.c.isFinite && t.d.isFinite then 0 else nan
  z := if t.e.isFinite && t.f.isFinite then 1 else nan

theorem bottom_mul_eq : (t.matrix * u.matrix).bottom = u.refusedRow := by
  obtain ⟨hx, hy, hz⟩ := Triple.same_unit_iff.mp u.bottom_same
  exact (Triple.mk.injEq ..).mpr
    ⟨Triple.dot_column t.bottom_same hx, Triple.dot_column t.bottom_same hy, Triple.dot_column_one t.bottom_same hz⟩

/-- It is the last row of a transform exactly if `u` is finite. -/
theorem refusedRow_same_iff : u.refusedRow.same Triple.unit = true ↔ u.isFinite = true := by
  have hzero : ∀ b : Bool, IsZero (if b then 0 else nan) ↔ b = true := by
    rintro (_ | _)
    · simp [IsZero]
    · simp [isZero_zero]
  have hone : ∀ b : Bool, (if b then 1 else nan) = 1 ↔ b = true := by
    rintro (_ | _) <;> simp [one_eq]
  rw [Triple.same_unit_iff, isFinite_iff]
  exact and_congr (hzero _) (and_congr (hzero _) (hone _))

theorem bottom_mul_same_iff : (t.matrix * u.matrix).bottom.same Triple.unit = true ↔ u.isFinite = true := by
  rw [bottom_mul_eq, refusedRow_same_iff]

variable {t u}

theorem after_eq_error_iff {fault : Fault} :
    t.after u = .error fault ↔ u.isFinite = false ∧ fault = .lastRow u.refusedRow := by
  unfold after ofMatrix
  split
  · rename_i h
    simp [(bottom_mul_same_iff t u).mp h]
  · rename_i h
    rw [bottom_mul_same_iff, Bool.not_eq_true] at h
    have hrow : (t.matrix * u.matrix).bottom.map Reported.reported = u.refusedRow := bottom_mul_eq t u
    rw [hrow, Except.error.injEq, eq_comm]
    simp [h]

theorem after_eq_ok_iff {w : Transform Binary64} :
    t.after u = .ok w ↔ u.isFinite = true ∧ w.matrix = t.matrix * u.matrix := by
  unfold after ofMatrix
  split
  · rename_i h
    simp only [(bottom_mul_same_iff t u).mp h, Except.ok.injEq, true_and]
    constructor
    · rintro rfl
      rfl
    · intro hw
      cases w
      cases hw
      rfl
  · rename_i h
    rw [bottom_mul_same_iff, Bool.not_eq_true] at h
    simp [h]

end Transform

/-! ### Lists of operations -/

namespace Operation

/-- The operations compose to `t`, which is not finite. -/
def OverflowTo (t : Transform Binary64) (ops : List (Operation Binary64)) : Prop :=
  composed ops = .ok t ∧ t.isFinite = false

/-- Some operations behind the first one compose to `t`, which is not finite. -/
def OverflowEarlyTo (t : Transform Binary64) (ops : List (Operation Binary64)) : Prop :=
  ∃ k, 1 ≤ k ∧ OverflowTo t (ops.drop k)

variable {t : Transform Binary64}

theorem not_overflowTo_nil : ¬ OverflowTo t [] := by
  rintro ⟨ht, hfin⟩
  cases ht
  revert hfin
  decide +kernel

theorem overflowEarlyTo_cons_iff {op : Operation Binary64} {ops : List (Operation Binary64)} :
    OverflowEarlyTo t (op :: ops) ↔ OverflowTo t ops ∨ OverflowEarlyTo t ops := by
  constructor
  · rintro ⟨k, hk, h⟩
    obtain ⟨k, rfl⟩ := Nat.exists_eq_add_of_le' hk
    cases k with
    | zero => exact .inl h
    | succ k => exact .inr ⟨k + 1, by omega, h⟩
  · rintro (h | ⟨k, hk, h⟩)
    · exact ⟨1, Nat.le_refl 1, h⟩
    · exact ⟨k + 1, by omega, h⟩

theorem composed_cons (op : Operation Binary64) (ops : List (Operation Binary64)) :
    composed (op :: ops) = composed ops >>= fun t => op.transform.after t :=
  composeOperations_cons _ op ops

/-- **Operations** do not compose exactly if a proper tail of them has left the finite range, and then the last row
that it makes is the reason. -/
theorem composed_eq_error_iff {ops : List (Operation Binary64)} {fault : Fault} :
    composed ops = .error fault ↔ ∃ t, OverflowEarlyTo t ops ∧ fault = .lastRow t.refusedRow := by
  induction ops generalizing fault with
  | nil =>
    have hnil : composed [] = .ok Transform.identity := rfl
    simp [hnil, OverflowEarlyTo, not_overflowTo_nil]
  | cons op ops ih =>
    simp only [composed_cons, overflowEarlyTo_cons_iff, or_and_right, exists_or]
    cases h : composed ops with
    | error fault' =>
      -- the tail itself does not compose, so what makes it fail makes the whole list fail
      have hno : ∀ t, ¬ OverflowTo t ops := fun t ht => by simp [OverflowTo, h] at ht
      rw [← ih, h]
      simp [hno, bind, Except.bind]
    | ok u =>
      have hno : ∀ t, ¬ OverflowEarlyTo t ops := fun t ht => by simp [ih.mpr ⟨t, ht, rfl⟩] at h
      have hover : ∀ t, OverflowTo t ops ↔ u = t ∧ u.isFinite = false := fun t => by
        simp only [OverflowTo, h, Except.ok.injEq]
        exact and_congr_right fun hut => by rw [hut]
      simp only [hover, hno, false_and, exists_false, or_false, bind, Except.bind, and_assoc, exists_eq_left']
      exact Transform.after_eq_error_iff

end Operation

/-! ### Every way to compose -/

namespace Transform

theorem isFinite_eq_false_iff (t : Transform Binary64) :
    t.isFinite = false ↔ ∃ x ∈ t.coefficients, x.isFinite = false := by
  simp [isFinite, List.all_eq_false]

/-- **Composition** fails exactly if some coefficient of the transform that acts first is not finite, whatever the
other one is, and the last row that this transform makes is the fault; for the chained forms it is the elementary
transform which is put in front. A list of operations fails to compose exactly if some operations behind the first one
compose to such a transform. -/
theorem composition_fails_iff (fault : Fault) :
    (∀ t u : Transform Binary64,
      (t.after u = .error fault ↔ (∃ x ∈ u.coefficients, x.isFinite = false) ∧ fault = .lastRow u.refusedRow) ∧
      (t.andThen u = .error fault ↔ (∃ x ∈ t.coefficients, x.isFinite = false) ∧ fault = .lastRow t.refusedRow) ∧
      (compose t u = .error fault ↔ (∃ x ∈ t.coefficients, x.isFinite = false) ∧ fault = .lastRow t.refusedRow)) ∧
    (∀ (t : Transform Binary64) (x y degrees : Binary64),
      (t.translate x y = .error fault ↔ (∃ z ∈ (translation x y).coefficients, z.isFinite = false) ∧
        fault = .lastRow (translation x y).refusedRow) ∧
      (t.scale x y = .error fault ↔ (∃ z ∈ (scaling x y).coefficients, z.isFinite = false) ∧
        fault = .lastRow (scaling x y).refusedRow) ∧
      (t.rotate degrees.direction.1 degrees.direction.2 = .error fault ↔
        (∃ z ∈ (rotation degrees).coefficients, z.isFinite = false) ∧
        fault = .lastRow (rotation degrees).refusedRow)) ∧
    ∀ ops, Operation.composed ops = .error fault ↔ ∃ t, (∃ k, 1 ≤ k ∧ Operation.composed (ops.drop k) = .ok t ∧
      ∃ x ∈ t.coefficients, x.isFinite = false) ∧ fault = .lastRow t.refusedRow := by
  simp only [← isFinite_eq_false_iff]
  refine ⟨?_, ?_, fun ops => Operation.composed_eq_error_iff⟩
  · intro t u
    exact ⟨after_eq_error_iff, after_eq_error_iff, after_eq_error_iff⟩
  · intro t x y degrees
    exact ⟨after_eq_error_iff, after_eq_error_iff, after_eq_error_iff⟩

end Transform

end PlaneSketch
