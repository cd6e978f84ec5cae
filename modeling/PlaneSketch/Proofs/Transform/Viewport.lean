import PlaneSketch.Proofs.Transform.Identity
import PlaneSketch.Proofs.Binary64.Units
import PlaneSketch.Transform.Viewport

/-!
# Viewports in double precision

A translation that is applied last changes the last two coefficients of a finite transform and no others. So each
coordinate of the viewport is a stretch by half a side and a shift by half a side and the padding, up to the signs of
zeros, and it depends on the corresponding coordinate of the point alone.

* `alike_translation_after`: the coefficients of a transform behind which a translation is put.
* `alike_paddedViewport`: the coefficients of a viewport.
* `apply_of_axisParallel`: the coordinates are mapped one by one.
-/

namespace PlaneSketch

open Binary64

theorem Binary64.Alike.add_right {x y : Binary64} (h : Binary64.Alike x y) (z : Binary64) :
    Binary64.Alike (x + z) (y + z) := by
  rcases h with rfl | ⟨hx, hy⟩
  · exact .refl _
  · exact (alike_add_of_isZero_left hx).trans (alike_add_of_isZero_left hy).symm

namespace Triple

variable {v : Triple Binary64}

theorem alike_shifted_first_dot (hy : v.y.isFinite = true) (k : Binary64) :
    Binary64.Alike ((⟨1, 0, k⟩ : Triple Binary64).dot v) (v.x + k * v.z) := by
  rw [dot, Binary64.one_mul]
  refine Binary64.Alike.add_right ?_ _
  exact (alike_add_of_isZero (isZero_zero.mul hy)).trans (alike_add_of_isZero_left isZero_zero)

theorem alike_shifted_second_dot (hx : v.x.isFinite = true) (k : Binary64) :
    Binary64.Alike ((⟨0, 1, k⟩ : Triple Binary64).dot v) (v.y + k * v.z) := by
  rw [dot, Binary64.one_mul]
  exact (alike_add_of_isZero_left (isZero_zero.add (isZero_zero.mul hx))).add_right _

end Triple

namespace Transform

variable {t u : Transform Binary64} {tx ty : Binary64}

/-- A translation that is applied last. -/
theorem alike_translation_after (htx : tx.isFinite = true) (hty : ty.isFinite = true)
    (h : (translation tx ty).after t = .ok u) :
    u.matrix.Alike (ofCoefficients t.a t.b t.c t.d (t.e + tx) (t.f + ty)).matrix := by
  obtain ⟨hfin, hmatrix⟩ := after_eq_ok_iff.mp h
  obtain ⟨hx, hy, hz⟩ := Triple.same_unit_iff.mp t.bottom_same
  have ht : t.matrix.IsFinite := matrix_isFinite_iff.mpr hfin
  have hcolumns := ht.transpose
  have hkeep : ∀ {x k g : Binary64}, k.isFinite = true → IsZero g → Binary64.Alike (x + k * g) x := fun hk hg =>
    alike_add_of_isZero (Binary64.mul_comm _ _ ▸ hg.mul hk)
  have hshift : ∀ x k : Binary64, Binary64.Alike (x + k * t.matrix.bottom.z) (x + k) := fun x k => by
    rw [hz, Binary64.mul_comm, Binary64.one_mul]
    exact .refl _
  -- entry by entry; the zeros of the translation leave at most the sign of a zero behind
  rw [hmatrix]
  exact {
    top := ⟨(Triple.alike_shifted_first_dot hcolumns.top.y tx).trans (hkeep htx hx),
      (Triple.alike_shifted_first_dot hcolumns.middle.y tx).trans (hkeep htx hy),
      (Triple.alike_shifted_first_dot hcolumns.bottom.y tx).trans (hshift _ _)⟩
    middle := ⟨(Triple.alike_shifted_second_dot hcolumns.top.x ty).trans (hkeep hty hx),
      (Triple.alike_shifted_second_dot hcolumns.middle.x ty).trans (hkeep hty hy),
      (Triple.alike_shifted_second_dot hcolumns.bottom.x ty).trans (hshift _ _)⟩
    bottom := ⟨(Triple.alike_unit_dot hcolumns.top).trans (.inr ⟨hx, isZero_zero⟩),
      (Triple.alike_unit_dot hcolumns.middle).trans (.inr ⟨hy, isZero_zero⟩),
      (Triple.alike_unit_dot hcolumns.bottom).trans (.inl hz)⟩ }

variable {width height padding : Binary64}

/-- The coefficients of a viewport: half a side is stretched over, and shifted by together with the padding. -/
theorem alike_paddedViewport (hpadding : padding.isFinite = true) (h : paddedViewport width height padding = .ok t) :
    ((width / 2).isFinite = true ∧ (height / 2).isFinite = true) ∧
      t.matrix.Alike (ofCoefficients (width / 2) 0 0 (-(height / 2)) (width / 2 + padding)
        (height / 2 + padding)).matrix := by
  unfold paddedViewport at h
  cases hv : viewport width height with
  | error fault =>
    rw [hv] at h
    cases h
  | ok v =>
    rw [hv] at h
    have hscaled : (translation (width / 2) (height / 2)).after (scaling (width / 2) (-(height / 2))) = .ok v := hv
    -- the halves of the sides are factors of a stretch that was composed, which takes them to be finite
    have hsides : (width / 2).isFinite = true ∧ (height / 2).isFinite = true := by
      have hfin := (after_eq_ok_iff.mp hscaled).1
      rw [scaling, isFinite_ofCoefficients] at hfin
      simp only [List.all_cons, Bool.and_eq_true, isFinite_neg] at hfin
      exact ⟨hfin.1, hfin.2.2.2.1⟩
    have hscaled := alike_translation_after hsides.1 hsides.2 hscaled
    have hshifted := alike_translation_after hpadding hpadding h
    refine ⟨hsides, hshifted.trans ?_⟩
    exact {
      top := ⟨hscaled.top.x, hscaled.top.y,
        (hscaled.top.z.trans (alike_add_of_isZero_left isZero_zero)).add_right padding⟩
      middle := ⟨hscaled.middle.x, hscaled.middle.y,
        (hscaled.middle.z.trans (alike_add_of_isZero_left isZero_zero)).add_right padding⟩
      bottom := .refl _ }

theorem apply_of_axisParallel {a d e f : Binary64} {p : Point Binary64} (hx : p.x.isFinite = true)
    (hy : p.y.isFinite = true) :
    (ofCoefficients a 0 0 d e f).apply p = ⟨0 + a * p.x + e, 0 + d * p.y + f⟩ := by
  have hone : ∀ z : Binary64, z * 1 = z := fun z => by rw [Binary64.mul_comm, Binary64.one_mul]
  show (⟨0 + a * p.x + 0 * p.y + e * 1, 0 + 0 * p.x + d * p.y + f * 1⟩ : Point Binary64) = _
  rw [hone, hone, add_eq_self_of_isZero (add_ne_negZero zero_ne_negZero _) (isZero_zero.mul hy),
    add_eq_self_of_isZero zero_ne_negZero (isZero_zero.mul hx)]

/-- **A viewport** maps the coordinates one by one, each by a stretch and a shift. -/
theorem apply_paddedViewport (hpadding : padding.isFinite = true) (h : paddedViewport width height padding = .ok t)
    {p : Point Binary64} (hx : p.x.isFinite = true) (hy : p.y.isFinite = true) :
    t.apply p = ⟨0 + width / 2 * p.x + (width / 2 + padding), 0 + -(height / 2) * p.y + (height / 2 + padding)⟩ := by
  rw [apply_of_alike (alike_paddedViewport hpadding h).2, apply_of_axisParallel hx hy]

end Transform

end PlaneSketch
