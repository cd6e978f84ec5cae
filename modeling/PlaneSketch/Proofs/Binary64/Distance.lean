import PlaneSketch.Proofs.Binary64.Enclosure

/-!
# Distances of doubles

The distance of two finite doubles is the exact one, rounded once, and infinite where that is out of range. A bound that
is a double itself and holds of the exact distance holds of the rounded one too. Conversely the exact distance may
exceed such a bound by what rounding has taken away, which is at most one part in `2 ^ 53`; where the exact distance is
a double, it is not rounded at all.

* `Counts.abs_sub_le_iff`: bounds of distances in units.
* `abs_sub_comm`, `isFinite_of_abs_sub_le`: distances in both directions, and from infinities.
* `abs_sub_le_of_rational`, `rational_le_of_abs_sub_le`, `abs_sub_le_iff_of_isValue`: bounds of exact distances.
-/

namespace PlaneSketch.Binary64

variable {x y tol : Binary64} {u v w : ℤ} {p q ε : ℚ}

/-! ### Magnitudes -/

theorem not_nan_le (y : Binary64) : ¬ nan ≤ y := by
  rw [le_iff_exists_units]
  rintro ⟨i, -, hi, -⟩
  cases hi

theorem not_infinite_le (hy : y.isFinite = true) : ¬ infinite false ≤ y := by
  obtain ⟨v, hv⟩ := exists_counts hy
  have hbelow := hv.fits.below
  rw [le_iff_exists_units]
  rintro ⟨i, j, hi, hj, hij⟩
  obtain rfl : v = j := Option.some.inj (hv.units.symm.trans hj)
  obtain rfl : (Precision.double.limit : ℤ) = i := Option.some.inj hi
  omega

theorem abs_ofRatio (s : Bool) (num den : ℕ) : (ofRatio s num den).abs = ofRatio false num den := by
  unfold ofRatio
  dsimp only
  split <;> rfl

/-- A quotient that overflows exceeds every finite bound before and after it does. -/
theorem ofRatio_le_iff {num den : ℕ} (hy : Counts y v) :
    ofRatio false num den ≤ y ↔ (Precision.double.round num den : ℤ) ≤ v := by
  unfold ofRatio
  dsimp only
  split_ifs with hlt
  · have hcount := counts_finite false ⟨Precision.double.round_aligned num den, hlt⟩
    exact hcount.le_iff hy
  · have hbelow := hy.fits.below
    simp only [not_infinite_le hy.isFinite, false_iff]
    omega

/-! ### Rounded distances -/

theorem Counts.abs_sub (hx : Counts x u) (hy : Counts y v) : (x - y).abs = ofRatio false (u - v).natAbs 1 := by
  obtain ⟨s, hsum, -⟩ := hx.exists_add_eq hy.neg
  have hdifference : x - y = ofRatio s (u + -v).natAbs 1 := hsum
  rw [hdifference, abs_ofRatio, ← Int.sub_eq_add_neg]

theorem Counts.abs_sub_le_iff (hx : Counts x u) (hy : Counts y v) (htol : Counts tol w) :
    (x - y).abs ≤ tol ↔ (Precision.double.round (u - v).natAbs 1 : ℤ) ≤ w := by
  rw [hx.abs_sub hy, ofRatio_le_iff htol]

theorem abs_sub_comm (hx : x.isFinite = true) (hy : y.isFinite = true) : (x - y).abs = (y - x).abs := by
  obtain ⟨u, hu⟩ := exists_counts hx
  obtain ⟨v, hv⟩ := exists_counts hy
  rw [hu.abs_sub hv, hv.abs_sub hu, ← Int.natAbs_neg, neg_sub]

/-- What is within a finite distance of a finite double is finite. -/
theorem isFinite_of_abs_sub_le (hy : y.isFinite = true) (htol : tol.isFinite = true) (h : (x - y).abs ≤ tol) :
    x.isFinite = true := by
  cases x with
  | nan =>
    have hnan : (nan - y).abs = nan := congrArg abs (nan_add (-y))
    exact absurd (hnan ▸ h) (not_nan_le tol)
  | infinite s =>
    obtain ⟨v, t, n, hn, rfl, -⟩ := exists_counts hy
    exact absurd h (not_infinite_le htol)
  | finite s n hn => rfl

/-! ### Exact distances -/

theorem abs_sub_le_iff_units :
    |(u / unitsPerOne - v / unitsPerOne : ℚ)| ≤ w / unitsPerOne ↔ ((u - v).natAbs : ℤ) ≤ w := by
  rw [← sub_div, abs_div, abs_of_pos cast_unitsPerOne_pos, div_le_div_iff_of_pos_right cast_unitsPerOne_pos,
    ← Int.abs_eq_natAbs]
  norm_cast

/-- An exact distance that is no greater than a double is not rounded above it. -/
theorem abs_sub_le_of_rational (hx : x.rational? = some p) (hy : y.rational? = some q) (htol : tol.rational? = some ε)
    (h : |p - q| ≤ ε) : (x - y).abs ≤ tol := by
  obtain ⟨u, hu, rfl⟩ := exists_counts_of_rational hx
  obtain ⟨v, hv, rfl⟩ := exists_counts_of_rational hy
  obtain ⟨w, hw, rfl⟩ := exists_counts_of_rational htol
  rw [abs_sub_le_iff_units] at h
  rw [hu.abs_sub_le_iff hv hw]
  obtain ⟨m, rfl⟩ := Int.eq_ofNat_of_zero_le (by omega : 0 ≤ w)
  have hfits : FitsDouble m := hw.fits
  calc (Precision.double.round (u - v).natAbs 1 : ℤ) ≤ Precision.double.round m 1 := by
        exact_mod_cast Precision.double.monotone_round Nat.one_pos (Int.ofNat_le.mp h)
    _ = m := by rw [Precision.double.round_of_aligned hfits.aligned]

/-- Rounding takes at most one part in `2 ^ 53` away from a distance. -/
theorem rational_le_of_abs_sub_le (hx : x.rational? = some p) (hy : y.rational? = some q)
    (htol : tol.rational? = some ε) (h : (x - y).abs ≤ tol) : |p - q| ≤ ε * (1 + 1 / 2 ^ 53) := by
  obtain ⟨u, hu, rfl⟩ := exists_counts_of_rational hx
  obtain ⟨v, hv, rfl⟩ := exists_counts_of_rational hy
  obtain ⟨w, hw, rfl⟩ := exists_counts_of_rational htol
  have hround := (hu.abs_sub_le_iff hv hw).mp h
  have hexcess : (u - v).natAbs * 2 ^ 53 ≤ Precision.double.round (u - v).natAbs 1 * (2 ^ 53 + 1) :=
    Precision.double.mul_two_pow_le_round_mul rfl _
  zify at hexcess
  have hunits : (|u - v| : ℚ) * 2 ^ 53 ≤ w * (2 ^ 53 + 1) := by
    exact_mod_cast hexcess.trans (mul_le_mul_of_nonneg_right hround (by norm_num))
  rw [← sub_div, abs_div, abs_of_pos cast_unitsPerOne_pos, div_mul_eq_mul_div,
    div_le_div_iff_of_pos_right cast_unitsPerOne_pos]
  linarith

/-- The bound is reached: a distance of `1 + 2 ^ -53` is rounded to one. -/
example : (1 - -ofFraction 1 (2 ^ 53) : Binary64).abs ≤ 1 := by decide +kernel

/-- A distance that is a double is not rounded. -/
theorem abs_sub_le_iff_of_isValue (hx : x.rational? = some p) (hy : y.rational? = some q)
    (htol : tol.rational? = some ε) (h : IsValue (p - q)) : (x - y).abs ≤ tol ↔ |p - q| ≤ ε := by
  obtain ⟨u, hu, rfl⟩ := exists_counts_of_rational hx
  obtain ⟨v, hv, rfl⟩ := exists_counts_of_rational hy
  obtain ⟨w, hw, rfl⟩ := exists_counts_of_rational htol
  obtain ⟨z, hz⟩ := h
  obtain ⟨k, hk, hdifference⟩ := exists_counts_of_rational hz
  obtain rfl : u - v = k := by
    rw [← sub_div, div_left_inj' cast_unitsPerOne_pos.ne'] at hdifference
    exact_mod_cast hdifference
  rw [hu.abs_sub_le_iff hv hw, Precision.double.round_of_aligned hk.fits.aligned, abs_sub_le_iff_units]

end PlaneSketch.Binary64
