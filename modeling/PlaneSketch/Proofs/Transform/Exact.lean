import Mathlib.Tactic.Ring
import PlaneSketch.Transform.Basic

/-!
# Transforms over a ring

Where arithmetic is exact, the last row of a transform is `(0, 0, 1)` itself, so composing never fails, and the
transforms form a monoid that acts on points.

* `after_eq_ok`: composing two transforms gives their product.
* `apply_mul`: the product applies its right factor first.
* `apply_translation`, `apply_scaling`, `apply_turn`: what the elementary transforms do to a point.
-/

namespace PlaneSketch

/-- Where equality of values is equality, zero and one are equal to themselves in value. -/
instance (priority := low) SelfEqualUnits.ofDecidableEq {K : Type} [Zero K] [One K] [DecidableEq K] :
    SelfEqualUnits K :=
  ⟨beq_self_eq_true 0, beq_self_eq_true 1⟩

instance : Reported ℤ := ⟨Binary64.ofInt⟩

instance : Reported ℚ := ⟨fun q => .ofRatio (decide (q < 0)) (q.num.natAbs * Binary64.unitsPerOne) q.den⟩

variable {K : Type} [CommRing K]

/-! ### Matrices -/

namespace Matrix

theorem mul_eq (m n : Matrix K) : m * n = ⟨rowMul m.top n, rowMul m.middle n, rowMul m.bottom n⟩ := rfl

protected theorem mul_assoc (l m n : Matrix K) : l * m * n = l * (m * n) := by
  simp only [mul_eq, rowMul, transpose, Triple.dot, Matrix.mk.injEq, Triple.mk.injEq]
  refine ⟨⟨?_, ?_, ?_⟩, ⟨?_, ?_, ?_⟩, ?_, ?_, ?_⟩ <;> ring

protected theorem one_mul (m : Matrix K) : identity * m = m := by
  simp [mul_eq, identity, rowMul, transpose, Triple.dot, Triple.unit]

protected theorem mul_one (m : Matrix K) : m * identity = m := by
  simp [mul_eq, identity, rowMul, transpose, Triple.dot, Triple.unit]

/-- A product of matrices is applied by applying its right factor first. -/
theorem mulColumn_mul (m n : Matrix K) (v : Triple K) : (m * n).mulColumn v = m.mulColumn (n.mulColumn v) := by
  simp only [mul_eq, mulColumn, rowMul, transpose, Triple.dot, Triple.mk.injEq]
  refine ⟨?_, ?_, ?_⟩ <;> ring

end Matrix

/-! ### Transforms -/

namespace Transform

variable [DecidableEq K]

/-- The last row is exactly `(0, 0, 1)`. -/
theorem bottom_eq (t : Transform K) : t.matrix.bottom = Triple.unit := by
  have h := t.bottom_same
  simp only [Triple.same, Bool.and_eq_true, beq_iff_eq] at h
  obtain ⟨⟨hx, hy⟩, hz⟩ := h
  cases hb : t.matrix.bottom with
  | mk x y z => simp_all

theorem bottom_mul (t u : Transform K) : (t.matrix * u.matrix).bottom = Triple.unit := by
  rw [Matrix.mul_eq]
  simp [Matrix.rowMul, Matrix.transpose, Triple.dot, bottom_eq, Triple.unit]

theorem bottom_mul_same (t u : Transform K) : (t.matrix * u.matrix).bottom.same Triple.unit = true := by
  rw [bottom_mul]
  exact unit_same_unit

theorem ext_matrix {t u : Transform K} (h : t.matrix = u.matrix) : t = u := by
  cases t
  cases u
  cases h
  rfl

theorem ext_coefficients {t u : Transform K} (h : t.coefficients = u.coefficients) : t = u := by
  obtain ⟨⟨⟨a, c, e⟩, ⟨b, d, f⟩, bottom⟩, ht⟩ := t
  obtain ⟨⟨⟨a', c', e'⟩, ⟨b', d', f'⟩, bottom'⟩, hu⟩ := u
  obtain rfl : bottom = Triple.unit := bottom_eq ⟨⟨⟨a, c, e⟩, ⟨b, d, f⟩, bottom⟩, ht⟩
  obtain rfl : bottom' = Triple.unit := bottom_eq ⟨⟨⟨a', c', e'⟩, ⟨b', d', f'⟩, bottom'⟩, hu⟩
  cases h
  rfl

instance : Monoid (Transform K) where
  mul t u := ⟨t.matrix * u.matrix, bottom_mul_same t u⟩
  one := identity
  mul_assoc t u v := ext_matrix (Matrix.mul_assoc t.matrix u.matrix v.matrix)
  one_mul t := ext_matrix (Matrix.one_mul t.matrix)
  mul_one t := ext_matrix (Matrix.mul_one t.matrix)

theorem matrix_mul (t u : Transform K) : (t * u).matrix = t.matrix * u.matrix := rfl

theorem one_eq_identity : (1 : Transform K) = identity := rfl

/-- Composing never fails. -/
theorem after_eq_ok [Reported K] (t u : Transform K) : t.after u = .ok (t * u) :=
  dif_pos (bottom_mul_same t u)

theorem mulColumn_point (t : Transform K) (p : Point K) :
    t.matrix.mulColumn ⟨p.x, p.y, 1⟩ = ⟨(t.apply p).x, (t.apply p).y, 1⟩ := by
  simp [apply, Matrix.mulColumn, bottom_eq, Triple.unit, Triple.dot]

/-- The image of a point, coordinate by coordinate. -/
theorem apply_eq (t : Transform K) (p : Point K) :
    t.apply p = ⟨t.a * p.x + t.c * p.y + t.e, t.b * p.x + t.d * p.y + t.f⟩ := by
  simp [apply, Matrix.mulColumn, Triple.dot, a, b, c, d, e, f]

theorem apply_one (p : Point K) : (1 : Transform K).apply p = p := by
  simp [one_eq_identity, apply, identity, ofCoefficients, Matrix.mulColumn, Triple.dot]

/-- A product is applied by applying its right factor first. -/
theorem apply_mul (t u : Transform K) (p : Point K) : (t * u).apply p = t.apply (u.apply p) := by
  have h : (t * u).matrix.mulColumn ⟨p.x, p.y, 1⟩ =
      t.matrix.mulColumn ⟨(u.apply p).x, (u.apply p).y, 1⟩ := by
    rw [matrix_mul, Matrix.mulColumn_mul, mulColumn_point]
  rw [mulColumn_point, mulColumn_point] at h
  simp only [Triple.mk.injEq, and_true] at h
  exact congrArg₂ Point.mk h.1 h.2

/-! ### What elementary transforms do -/

theorem apply_translation (tx ty : K) (p : Point K) : (translation tx ty).apply p = ⟨p.x + tx, p.y + ty⟩ := by
  simp [translation, ofCoefficients, apply, Matrix.mulColumn, Triple.dot]

theorem apply_scaling (sx sy : K) (p : Point K) : (scaling sx sy).apply p = ⟨sx * p.x, sy * p.y⟩ := by
  simp [scaling, ofCoefficients, apply, Matrix.mulColumn, Triple.dot]

theorem apply_turn (co si : K) (p : Point K) :
    (turn co si).apply p = ⟨co * p.x - si * p.y, si * p.x + co * p.y⟩ := by
  simp [turn, ofCoefficients, apply, Matrix.mulColumn, Triple.dot, sub_eq_add_neg]

end Transform

end PlaneSketch
