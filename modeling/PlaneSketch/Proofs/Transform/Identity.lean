import PlaneSketch.Proofs.Transform.Equality

/-!
# Products with the identity

The identity leaves a finite transform as it is, up to the signs of zeros, on either side of a product: every entry
is a sum of the entry itself and of products of finite entries with zeros. On the right an entry that is not finite
makes `nan` of the others in its row, so that the product is equal to no transform; on the left it fails as every
other product does.

* `Triple.same_rowMul_identity_iff`: a row that is multiplied by the identity.
* `Matrix.IsFinite.identity_mul`, `Matrix.same_mul_identity_iff`: a matrix, on either side.
* `Transform.exists_after_identity`, `Transform.exists_identity_after`: a transform, on either side.
-/

namespace PlaneSketch

open Binary64

/-! ### Rows -/

namespace Triple

variable {u v : Triple Binary64}

/-- All entries are finite. -/
structure IsFinite (v : Triple Binary64) : Prop where
  x : v.x.isFinite = true
  y : v.y.isFinite = true
  z : v.z.isFinite = true

theorem alike_first_dot (h : v.IsFinite) : Binary64.Alike ((⟨1, 0, 0⟩ : Triple Binary64).dot v) v.x := by
  rw [dot, Binary64.one_mul]
  calc Binary64.Alike (0 + v.x + 0 * v.y + 0 * v.z) (0 + v.x + 0 * v.y) := alike_add_of_isZero (isZero_zero.mul h.z)
    Binary64.Alike _ (0 + v.x) := alike_add_of_isZero (isZero_zero.mul h.y)
    Binary64.Alike _ v.x := alike_add_of_isZero_left isZero_zero

theorem alike_second_dot (h : v.IsFinite) : Binary64.Alike ((⟨0, 1, 0⟩ : Triple Binary64).dot v) v.y := by
  rw [dot, Binary64.one_mul]
  calc Binary64.Alike (0 + 0 * v.x + v.y + 0 * v.z) (0 + 0 * v.x + v.y) := alike_add_of_isZero (isZero_zero.mul h.z)
    Binary64.Alike _ v.y := alike_add_of_isZero_left (isZero_zero.add (isZero_zero.mul h.x))

theorem alike_unit_dot (h : v.IsFinite) : Binary64.Alike (unit.dot v) v.z := by
  rw [dot, unit, Binary64.one_mul]
  exact alike_add_of_isZero_left (isZero_partial_dot isZero_zero isZero_zero h.x h.y)

theorem alike_rowMul_identity (h : v.IsFinite) : (Matrix.rowMul v Matrix.identity).Alike v := by
  have hrow : Matrix.rowMul v Matrix.identity = ⟨dot ⟨1, 0, 0⟩ v, dot ⟨0, 1, 0⟩ v, unit.dot v⟩ := by
    rw [dot_comm _ v, dot_comm _ v, dot_comm _ v]
    rfl
  rw [hrow]
  exact ⟨alike_first_dot h, alike_second_dot h, alike_unit_dot h⟩

/-- No term of a sum that is not `nan` is `nan`. -/
theorem mul_ne_nan_of_dot_ne_nan (h : u.dot v ≠ nan) : u.x * v.x ≠ nan ∧ u.y * v.y ≠ nan ∧ u.z * v.z ≠ nan := by
  refine ⟨fun hx => h ?_, fun hy => h ?_, fun hz => h ?_⟩
  · rw [dot, hx, add_nan, nan_add, nan_add]
  · rw [dot, hy, add_nan, nan_add]
  · rw [dot, hz, add_nan]

theorem isFinite_of_mul_zero_ne_nan {x : Binary64} (h : x * 0 ≠ nan) : x.isFinite = true := by
  by_contra hx
  rw [Binary64.mul_comm, isZero_zero.mul_eq_nan (Bool.not_eq_true _ ▸ hx)] at h
  exact h rfl

theorem same_of_alike (h : u.Alike v) (hv : v.IsFinite) : u.same v = true := by
  rw [same, Binary64.beq_of_alike h.x hv.x, Binary64.beq_of_alike h.y hv.y, Binary64.beq_of_alike h.z hv.z]
  rfl

/-- The identity leaves a row equal in value exactly if the row is finite. -/
theorem same_rowMul_identity_iff : (Matrix.rowMul v Matrix.identity).same v = true ↔ v.IsFinite := by
  constructor
  · intro h
    obtain ⟨-, hfirst, hsecond, -⟩ := same_iff.mp h
    obtain ⟨-, hy, hz⟩ := mul_ne_nan_of_dot_ne_nan hfirst
    obtain ⟨hx, -, -⟩ := mul_ne_nan_of_dot_ne_nan hsecond
    exact ⟨isFinite_of_mul_zero_ne_nan hx, isFinite_of_mul_zero_ne_nan hy, isFinite_of_mul_zero_ne_nan hz⟩
  · exact fun h => same_of_alike (alike_rowMul_identity h) h

end Triple

/-! ### Matrices -/

namespace Matrix

variable {m n : Matrix Binary64}

/-- All rows are finite. -/
structure IsFinite (m : Matrix Binary64) : Prop where
  top : m.top.IsFinite
  middle : m.middle.IsFinite
  bottom : m.bottom.IsFinite

theorem IsFinite.transpose (h : m.IsFinite) : m.transpose.IsFinite where
  top := ⟨h.top.x, h.middle.x, h.bottom.x⟩
  middle := ⟨h.top.y, h.middle.y, h.bottom.y⟩
  bottom := ⟨h.top.z, h.middle.z, h.bottom.z⟩

theorem same_of_alike (h : m.Alike n) (hn : n.IsFinite) : m.same n = true :=
  same_iff_rows.mpr ⟨Triple.same_of_alike h.top hn.top, Triple.same_of_alike h.middle hn.middle,
    Triple.same_of_alike h.bottom hn.bottom⟩

/-- The identity on the left leaves a finite matrix alike. -/
theorem IsFinite.identity_mul (h : m.IsFinite) : (Matrix.identity * m).Alike m where
  top := ⟨Triple.alike_first_dot h.transpose.top, Triple.alike_first_dot h.transpose.middle,
    Triple.alike_first_dot h.transpose.bottom⟩
  middle := ⟨Triple.alike_second_dot h.transpose.top, Triple.alike_second_dot h.transpose.middle,
    Triple.alike_second_dot h.transpose.bottom⟩
  bottom := ⟨Triple.alike_unit_dot h.transpose.top, Triple.alike_unit_dot h.transpose.middle,
    Triple.alike_unit_dot h.transpose.bottom⟩

/-- The identity on the right leaves a matrix equal in value exactly if the matrix is finite. -/
theorem same_mul_identity_iff : (m * Matrix.identity).same m = true ↔ m.IsFinite := by
  rw [same_iff_rows]
  constructor
  · rintro ⟨htop, hmiddle, hbottom⟩
    exact ⟨Triple.same_rowMul_identity_iff.mp htop, Triple.same_rowMul_identity_iff.mp hmiddle,
      Triple.same_rowMul_identity_iff.mp hbottom⟩
  · rintro ⟨htop, hmiddle, hbottom⟩
    exact ⟨Triple.same_rowMul_identity_iff.mpr htop, Triple.same_rowMul_identity_iff.mpr hmiddle,
      Triple.same_rowMul_identity_iff.mpr hbottom⟩

end Matrix

/-! ### Transforms -/

namespace Transform

variable {t u : Transform Binary64}

/-- The last row is finite anyway. -/
theorem matrix_isFinite_iff : t.matrix.IsFinite ↔ t.isFinite = true := by
  obtain ⟨hx, hy, hz⟩ := Triple.same_unit_iff.mp t.bottom_same
  simp only [isFinite, coefficients, List.all_cons, List.all_nil, Bool.and_true, Bool.and_eq_true]
  constructor
  · rintro ⟨htop, hmiddle, -⟩
    exact ⟨htop.x, hmiddle.x, htop.y, hmiddle.y, htop.z, hmiddle.z⟩
  · rintro ⟨ha, hb, hc, hd, he, hf⟩
    exact ⟨⟨ha, hc, he⟩, ⟨hb, hd, hf⟩, ⟨isFinite_of_isZero hx, isFinite_of_isZero hy, hz ▸ isFinite_one⟩⟩

theorem isFinite_ofCoefficients (a b c d e f : Binary64) :
    (ofCoefficients a b c d e f).isFinite = [a, b, c, d, e, f].all Binary64.isFinite := rfl

theorem isFinite_eq_of_alike (h : t.matrix.Alike u.matrix) : t.isFinite = u.isFinite := by
  have hall : ∀ w : Transform Binary64, w.isFinite = (w.coefficients.map Binary64.isFinite).all id := fun w => by
    rw [isFinite, List.all_map]
    rfl
  rw [hall, hall, map_coefficients_of_alike Alike.isFinite_eq h]

theorem beq_of_alike (h : t.matrix.Alike u.matrix) (hu : u.isFinite = true) : (t == u) = true :=
  Matrix.same_of_alike h (matrix_isFinite_iff.mpr hu)

theorem isFinite_identity : (identity : Transform Binary64).isFinite = true := by
  decide +kernel

theorem exists_after (t : Transform Binary64) (hu : u.isFinite = true) :
    ∃ w, t.after u = .ok w ∧ w.matrix = t.matrix * u.matrix :=
  ⟨⟨t.matrix * u.matrix, (bottom_mul_same_iff t u).mpr hu⟩, after_eq_ok_iff.mpr ⟨hu, rfl⟩, rfl⟩

/-- The identity in front always composes, and changes the value exactly of a transform that is not finite. -/
theorem exists_after_identity (t : Transform Binary64) :
    ∃ w, t.after identity = .ok w ∧ ((w == t) = true ↔ t.isFinite = true) := by
  obtain ⟨w, hw, hmatrix⟩ := exists_after t isFinite_identity
  refine ⟨w, hw, ?_⟩
  rw [← matrix_isFinite_iff, ← Matrix.same_mul_identity_iff]
  show w.matrix.same t.matrix = true ↔ _
  rw [hmatrix]
  rfl

/-- The identity behind a finite transform leaves it alike. -/
theorem exists_identity_after (ht : t.isFinite = true) :
    ∃ w, identity.after t = .ok w ∧ w.matrix.Alike t.matrix := by
  obtain ⟨w, hw, hmatrix⟩ := exists_after identity ht
  exact ⟨w, hw, hmatrix ▸ (matrix_isFinite_iff.mpr ht).identity_mul⟩

end Transform

end PlaneSketch
