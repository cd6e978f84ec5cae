import PlaneSketch.Nesting
import PlaneSketch.Proofs.Binary64.SignedZero
import PlaneSketch.Proofs.Transform.Overflow

/-!
# Transforms that are equal in value

Transforms that are equal in value may differ in the signs of zeros, and nothing that is computed from them shows
it. Every entry of a product and every coordinate of an image is a sum that starts at zero, so it is never a negative
zero, and like terms may be exchanged in it; infinities do not matter, because a zero of either sign makes `nan` of
them.

* `Triple.dot_ne_negZero`, `Triple.Alike.dot_left`: such a sum.
* `Matrix.Alike.mul_left`, `Matrix.Alike.mul_right`: products of like matrices are the same to the last bit.
* `equality_is_congruence`: what equal transforms have in common, and why.
-/

namespace PlaneSketch

open Binary64

/-! ### Sums of products -/

namespace Triple

variable {u v : Triple Binary64}

/-- Entry by entry alike. -/
structure Alike (u v : Triple Binary64) : Prop where
  x : Binary64.Alike u.x v.x
  y : Binary64.Alike u.y v.y
  z : Binary64.Alike u.z v.z

theorem Alike.refl (u : Triple Binary64) : u.Alike u := ⟨.refl _, .refl _, .refl _⟩

theorem Alike.trans {w : Triple Binary64} (huv : u.Alike v) (hvw : v.Alike w) : u.Alike w :=
  ⟨huv.x.trans hvw.x, huv.y.trans hvw.y, huv.z.trans hvw.z⟩

/-- Equality in value is likeness of entries that are not `nan`. -/
theorem same_iff : u.same v = true ↔ u.Alike v ∧ u.x ≠ nan ∧ u.y ≠ nan ∧ u.z ≠ nan := by
  simp only [same, Bool.and_eq_true, beq_iff_alike]
  constructor
  · rintro ⟨⟨⟨hx, hx'⟩, hy, hy'⟩, hz, hz'⟩
    exact ⟨⟨hx, hy, hz⟩, hx', hy', hz'⟩
  · rintro ⟨⟨hx, hy, hz⟩, hx', hy', hz'⟩
    exact ⟨⟨⟨hx, hx'⟩, hy, hy'⟩, hz, hz'⟩

theorem dot_comm (u v : Triple Binary64) : u.dot v = v.dot u := by
  rw [dot, dot, Binary64.mul_comm u.x, Binary64.mul_comm u.y, Binary64.mul_comm u.z]

/-- Like factors make the same sum: each partial sum is no negative zero, and the products are alike. -/
theorem Alike.dot_left (h : u.Alike v) (w : Triple Binary64) : u.dot w = v.dot w := by
  have hx : 0 + u.x * w.x = 0 + v.x * w.x := (h.x.mul w.x).add_left zero_ne_negZero
  have hx' : 0 + v.x * w.x ≠ negZero := add_ne_negZero zero_ne_negZero _
  have hy : 0 + v.x * w.x + u.y * w.y = 0 + v.x * w.x + v.y * w.y := (h.y.mul w.y).add_left hx'
  have hy' : 0 + v.x * w.x + v.y * w.y ≠ negZero := add_ne_negZero hx' _
  rw [dot, dot, hx, hy, (h.z.mul w.z).add_left hy']

theorem Alike.dot_right (h : u.Alike v) (w : Triple Binary64) : w.dot u = w.dot v := by
  rw [dot_comm w u, dot_comm w v, h.dot_left]

end Triple

/-! ### Like matrices -/

namespace Matrix

variable {m n : Matrix Binary64}

/-- Row by row alike. -/
structure Alike (m n : Matrix Binary64) : Prop where
  top : m.top.Alike n.top
  middle : m.middle.Alike n.middle
  bottom : m.bottom.Alike n.bottom

theorem Alike.refl (m : Matrix Binary64) : m.Alike m := ⟨.refl _, .refl _, .refl _⟩

theorem Alike.trans {l : Matrix Binary64} (hmn : m.Alike n) (hnl : n.Alike l) : m.Alike l :=
  ⟨hmn.top.trans hnl.top, hmn.middle.trans hnl.middle, hmn.bottom.trans hnl.bottom⟩

theorem Alike.transpose (h : m.Alike n) : m.transpose.Alike n.transpose where
  top := ⟨h.top.x, h.middle.x, h.bottom.x⟩
  middle := ⟨h.top.y, h.middle.y, h.bottom.y⟩
  bottom := ⟨h.top.z, h.middle.z, h.bottom.z⟩

theorem rowMul_of_alike {u v : Triple Binary64} (h : u.Alike v) (m : Matrix Binary64) : rowMul u m = rowMul v m := by
  simp only [rowMul, h.dot_left]

theorem Alike.rowMul_right (h : m.Alike n) (v : Triple Binary64) : rowMul v m = rowMul v n := by
  simp only [rowMul, h.transpose.top.dot_right, h.transpose.middle.dot_right, h.transpose.bottom.dot_right]

/-- Like left factors make the same product. -/
theorem Alike.mul_left (h : m.Alike n) (l : Matrix Binary64) : m * l = n * l := by
  show Matrix.mk _ _ _ = Matrix.mk _ _ _
  rw [rowMul_of_alike h.top, rowMul_of_alike h.middle, rowMul_of_alike h.bottom]

/-- Like right factors make the same product. -/
theorem Alike.mul_right (h : m.Alike n) (l : Matrix Binary64) : l * m = l * n := by
  show Matrix.mk _ _ _ = Matrix.mk _ _ _
  rw [h.rowMul_right, h.rowMul_right, h.rowMul_right]

theorem Alike.mulColumn_eq (h : m.Alike n) (v : Triple Binary64) : m.mulColumn v = n.mulColumn v := by
  rw [mulColumn, mulColumn, h.top.dot_left, h.middle.dot_left, h.bottom.dot_left]

theorem same_iff_rows : m.same n = true ↔
    m.top.same n.top = true ∧ m.middle.same n.middle = true ∧ m.bottom.same n.bottom = true := by
  simp only [same, related, Triple.same, Bool.and_eq_true, and_assoc]

theorem alike_of_same (h : m.same n = true) : m.Alike n := by
  obtain ⟨htop, hmiddle, hbottom⟩ := same_iff_rows.mp h
  exact ⟨(Triple.same_iff.mp htop).1, (Triple.same_iff.mp hmiddle).1, (Triple.same_iff.mp hbottom).1⟩

end Matrix

/-! ### Like transforms -/

/-- Neither coordinate is a negative zero. -/
def Point.NoNegZero (p : Point Binary64) : Prop := p.x ≠ negZero ∧ p.y ≠ negZero

namespace Transform

variable {t u : Transform Binary64}

theorem alike_of_beq (h : (t == u) = true) : t.matrix.Alike u.matrix := Matrix.alike_of_same h

/-- What does not tell like doubles apart does not tell the coefficients of like transforms apart. -/
theorem map_coefficients_of_alike {α : Type} {g : Binary64 → α} (hg : ∀ {x y}, Binary64.Alike x y → g x = g y)
    (h : t.matrix.Alike u.matrix) : t.coefficients.map g = u.coefficients.map g := by
  simp only [coefficients, a, b, c, d, e, f, List.map_cons, hg h.top.x, hg h.middle.x, hg h.top.y, hg h.middle.y,
    hg h.top.z, hg h.middle.z]

theorem after_left_of_alike (h : t.matrix.Alike u.matrix) (w : Transform Binary64) : t.after w = u.after w := by
  rw [after, after, h.mul_left]

theorem after_right_of_alike (h : t.matrix.Alike u.matrix) (w : Transform Binary64) : w.after t = w.after u := by
  rw [after, after, h.mul_right]

theorem apply_of_alike (h : t.matrix.Alike u.matrix) (p : Point Binary64) : t.apply p = u.apply p := by
  rw [apply, apply, h.mulColumn_eq]

theorem fingerprint_of_alike (h : t.matrix.Alike u.matrix) : t.fingerprint = u.fingerprint :=
  map_coefficients_of_alike Alike.fingerprint_eq h

theorem summary_of_alike (h : t.matrix.Alike u.matrix) : t.summary = u.summary := by
  have htexts : ∀ xs : List Binary64,
      List.zipWith (fun name x => name ++ ": " ++ x.toSixPlaces) coefficientNames xs =
        List.zipWith (fun name text => name ++ ": " ++ text) coefficientNames (xs.map toSixPlaces) :=
    fun xs => List.zipWith_map_right.symm
  rw [summary, summary, htexts, htexts, map_coefficients_of_alike Alike.toSixPlaces_eq h]

/-! ### No negative zeros -/

/-- The coefficients of a product are no negative zeros. -/
theorem ne_negZero_of_after {w : Transform Binary64} (h : t.after u = .ok w) : ∀ x ∈ w.coefficients, x ≠ negZero := by
  have hmatrix : w.matrix = t.matrix * u.matrix := (after_eq_ok_iff.mp h).2
  simp only [coefficients, a, b, c, d, e, f, hmatrix, List.forall_mem_cons]
  exact ⟨Triple.dot_ne_negZero _ _, Triple.dot_ne_negZero _ _, Triple.dot_ne_negZero _ _, Triple.dot_ne_negZero _ _,
    Triple.dot_ne_negZero _ _, Triple.dot_ne_negZero _ _, List.forall_mem_nil _⟩

theorem noNegZero_apply (t : Transform Binary64) (p : Point Binary64) : (t.apply p).NoNegZero :=
  ⟨Triple.dot_ne_negZero _ _, Triple.dot_ne_negZero _ _⟩

theorem noNegZero_of_applyNesting {n : Nesting} {levels : Nat} {ps : List (Point Binary64)}
    (h : t.applyNesting n levels = .ok ps) : ∀ p ∈ ps, p.NoNegZero := by
  unfold applyNesting at h
  cases hpoints : n.points levels with
  | error fault => simp [hpoints, Except.map] at h
  | ok qs =>
    rw [hpoints] at h
    rw [← Except.ok.inj h, applyAll_eq_map Binary64.mul_comm, List.forall_mem_map]
    exact fun q _ => noNegZero_apply t q

/-- What becomes of two numbers: the image of the doubles they stand for, or sums without a zero in front. -/
theorem applyNumbers_eq_ok_iff {m n : Number} {p : Point Binary64} :
    t.applyNumbers m n = .ok p ↔ ∃ x y, m.toBinary64? = some x ∧ n.toBinary64? = some y ∧
      p = if m.fitsWord && n.fitsWord then t.apply ⟨x, y⟩
        else ⟨bareDot t.matrix.top ⟨x, y, 1⟩, bareDot t.matrix.middle ⟨x, y, 1⟩⟩ := by
  unfold applyNumbers Number.toBinary64 Number.toBinary64Or
  cases m.toBinary64? with
  | none => simp [bind, Except.bind]
  | some x =>
    cases n.toBinary64? with
    | none => simp [bind, Except.bind]
    | some y => cases m.fitsWord && n.fitsWord <;> simp [bind, Except.bind, eq_comm]

theorem noNegZero_of_applyNumbers {m n : Number} {p : Point Binary64} (hfits : (m.fitsWord && n.fitsWord) = true)
    (h : t.applyNumbers m n = .ok p) : p.NoNegZero := by
  obtain ⟨x, y, -, -, rfl⟩ := applyNumbers_eq_ok_iff.mp h
  rw [if_pos hfits]
  exact noNegZero_apply t _

/-- **Equality in value** is a congruence: transforms that are equal in value share their fingerprint and their
summary, map every point to the same point, and compose with every transform, on either side, to the same transform
or to the same fault, all to the last bit. The reason is that no coefficient of a product and no coordinate of an
image is a negative zero, whether the point is given by doubles, by integers within a machine word or in a nested
list. -/
theorem equality_is_congruence :
    (∀ t u : Transform Binary64, (t == u) = true →
      t.fingerprint = u.fingerprint ∧ t.summary = u.summary ∧ (∀ p, t.apply p = u.apply p) ∧
      ∀ w : Transform Binary64, t.after w = u.after w ∧ w.after t = w.after u) ∧
    (∀ t u w : Transform Binary64, t.after u = .ok w → ∀ x ∈ w.coefficients, x ≠ negZero) ∧
    (∀ (t : Transform Binary64) (p : Point Binary64), (t.apply p).NoNegZero) ∧
    (∀ (t : Transform Binary64) (m n : Number) (p : Point Binary64), (m.fitsWord && n.fitsWord) = true →
      t.applyNumbers m n = .ok p → p.NoNegZero) ∧
    ∀ (t : Transform Binary64) (n : Nesting) (levels : Nat) (ps : List (Point Binary64)),
      t.applyNesting n levels = .ok ps → ∀ p ∈ ps, p.NoNegZero := by
  refine ⟨?_, fun _ _ _ => ne_negZero_of_after, noNegZero_apply, fun _ _ _ _ => noNegZero_of_applyNumbers,
    fun _ _ _ _ => noNegZero_of_applyNesting⟩
  intro t u h
  have halike := alike_of_beq h
  exact ⟨fingerprint_of_alike halike, summary_of_alike halike, apply_of_alike halike,
    fun w => ⟨after_left_of_alike halike w, after_right_of_alike halike w⟩⟩

/-- The identity, and the same matrix with some negative zeros, at an infinite point. -/
theorem identity_with_negative_zeros :
    let u : Transform Binary64 := ofCoefficients 1 0 negZero 1 negZero 0
    ((identity : Transform Binary64) == u) = true ∧ (identity : Transform Binary64).fingerprint = u.fingerprint ∧
      (identity : Transform Binary64).summary = u.summary ∧
      (identity : Transform Binary64).apply ⟨.infinite true, negZero⟩ = u.apply ⟨.infinite true, negZero⟩ ∧
      (identity : Transform Binary64).after u = u.after u ∧
      (u.after u = .ok identity ∧ ∀ x ∈ (identity : Transform Binary64).coefficients, x ≠ negZero) ∧
      (u.applyNumbers (.int (-1)) (.real negZero) = .ok ⟨-1, 0⟩ ∧ Point.NoNegZero ⟨-1, 0⟩) ∧
      u.applyNesting (.list [.number (.int 0), .number (.real negZero)]) = .ok [⟨0, 0⟩] ∧
      ∀ p ∈ [(⟨0, 0⟩ : Point Binary64)], p.NoNegZero := by
  intro u
  obtain ⟨hcongruence, hproduct, -, hnumbers, hnesting⟩ := equality_is_congruence
  have hequal : ((identity : Transform Binary64) == u) = true := by decide +kernel
  have hsquare : u.after u = .ok identity := by decide +kernel
  have hpoint : u.applyNumbers (.int (-1)) (.real negZero) = .ok ⟨-1, 0⟩ := by decide +kernel
  have hlist : u.applyNesting (.list [.number (.int 0), .number (.real negZero)]) = .ok [⟨0, 0⟩] := by decide +kernel
  obtain ⟨hfingerprint, hsummary, happly, hafter⟩ := hcongruence _ u hequal
  exact ⟨hequal, hfingerprint, hsummary, happly _, (hafter u).1, ⟨hsquare, hproduct u u _ hsquare⟩,
    ⟨hpoint, hnumbers u _ _ _ (by decide) hpoint⟩, hlist, hnesting u _ _ _ hlist⟩

end Transform

end PlaneSketch
