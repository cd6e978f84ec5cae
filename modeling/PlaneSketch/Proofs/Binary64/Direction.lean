import PlaneSketch.Binary64.Angle
import PlaneSketch.Proofs.Binary64.SignedZero

/-!
# Directions of angles

An angle in degrees shrinks when it becomes radians, and cosines and sines do not exceed one, so the direction of a
finite angle is finite. The direction of a zero angle is that of the x-axis.

* `isFinite_direction`: directions of finite angles.
* `direction_of_isZero`: the direction of zero, of either sign.
-/

namespace PlaneSketch.Binary64

/-- A quotient that is at most a double rounds to a double that is no larger. -/
theorem ofRatio_of_le {num den n : Nat} (hden : 0 < den) (hn : FitsDouble n) (h : num ≤ n * den) (s : Bool) :
    ∃ k hk, ofRatio s num den = finite s k hk ∧ k ≤ n := by
  have hround : Precision.double.round num den ≤ n := by
    calc Precision.double.round num den ≤ Precision.double.round n 1 :=
          Precision.double.round_mono hden Nat.one_pos (by rwa [Nat.mul_one])
      _ = n := Precision.double.round_of_aligned hn.aligned
  have hlimit := Nat.lt_of_le_of_lt hround hn.below
  exact ⟨_, _, dif_pos hlimit, hround⟩

/-- A degree is less than a radian. -/
theorem exists_radiansPerDegree : ∃ n hn, radiansPerDegree = finite false n hn ∧ n ≤ unitsPerOne := by
  refine ofRatio_of_le (Nat.pow_pos (by decide)) fitsDouble_unitsPerOne ?_ false
  rw [Nat.mul_comm]
  exact Nat.mul_le_mul_left _ (by decide)

theorem isFinite_radians {degrees : Binary64} (h : degrees.isFinite = true) :
    (degrees * radiansPerDegree).isFinite = true := by
  obtain ⟨n, hn, hradian, hle⟩ := exists_radiansPerDegree
  cases degrees with
  | nan => cases h
  | infinite s => cases h
  | finite s m hm =>
    obtain ⟨k, hk, hproduct, -⟩ := ofRatio_of_le unitsPerOne_pos hm (Nat.mul_le_mul_left m hle) (s ^^ false)
    rw [hradian, finite_mul_finite, hproduct]
    rfl

/-! ### Cosines and sines -/

theorem one_series_pos : 0 < Nat.pow 2 seriesPlaces := by
  -- the exponent is kept apart, or the power would be evaluated
  have hpow : ∀ n, 0 < Nat.pow 2 n := Nat.two_pow_pos
  exact hpow seriesPlaces

theorem isFinite_ofSeries {n : Nat} (h : n ≤ Nat.pow 2 seriesPlaces) (s : Bool) : (ofSeries s n).isFinite = true := by
  have hle : n * unitsPerOne ≤ unitsPerOne * Nat.pow 2 seriesPlaces := by
    rw [Nat.mul_comm]
    exact Nat.mul_le_mul_left _ h
  obtain ⟨k, hk, hratio, -⟩ := ofRatio_of_le one_series_pos fitsDouble_unitsPerOne hle s
  rw [ofSeries, hratio]
  rfl

theorem firstQuarter_le (angle : Nat) :
    (firstQuarter angle).1 ≤ Nat.pow 2 seriesPlaces ∧ (firstQuarter angle).2 ≤ Nat.pow 2 seriesPlaces :=
  ⟨Nat.min_le_left _ _, Nat.min_le_left _ _⟩

theorem isFinite_cosSin {x : Binary64} (h : x.isFinite = true) :
    (cosSin x).1.isFinite = true ∧ (cosSin x).2.isFinite = true := by
  cases x with
  | nan => cases h
  | infinite s => cases h
  | finite s n hn =>
    unfold cosSin
    dsimp only
    generalize n * Nat.pow 2 (anglePlaces - 1074) = angle
    have hle := firstQuarter_le (angle % quarterTurn / Nat.pow 2 (anglePlaces - seriesPlaces))
    have hcos := isFinite_ofSeries hle.1
    have hsin := isFinite_ofSeries hle.2
    split
    · exact ⟨hcos _, hsin _⟩
    · exact ⟨hsin _, hcos _⟩
    · exact ⟨hcos _, hsin _⟩
    · exact ⟨hsin _, hcos _⟩

/-- The direction of a finite angle is finite. -/
theorem isFinite_direction {degrees : Binary64} (h : degrees.isFinite = true) :
    degrees.direction.1.isFinite = true ∧ degrees.direction.2.isFinite = true :=
  isFinite_cosSin (isFinite_radians h)

/-! ### The direction of zero -/

theorem alternatingSeries_zero_term (square fuel k : Nat) : alternatingSeries square fuel k 0 = 0 := by
  cases fuel <;> simp [alternatingSeries]

theorem alternatingSeries_zero_square (fuel k term : Nat) : alternatingSeries 0 (fuel + 1) k term = term := by
  rw [alternatingSeries, Nat.mul_zero, Nat.zero_div, Nat.zero_div, alternatingSeries_zero_term, Nat.sub_zero]
  split
  · rename_i hterm
    exact hterm.symm
  · rfl

theorem firstQuarter_zero : firstQuarter 0 = (Nat.pow 2 seriesPlaces, 0) := by
  have hseries : ∀ k term, alternatingSeries 0 seriesPlaces k term = term := alternatingSeries_zero_square 1299
  simp only [firstQuarter, Nat.mul_zero, Nat.zero_div, hseries, Nat.min_self, Nat.min_zero]

theorem ofSeries_one : ofSeries false (Nat.pow 2 seriesPlaces) = 1 := by
  have hscale := ofRatio_mul_left one_series_pos false unitsPerOne 1
  rw [Nat.mul_one] at hscale
  rw [ofSeries, hscale, one_eq, ofRatio_fits]

theorem cosSin_of_isZero {x : Binary64} (h : IsZero x) : (cosSin x).1 = 1 ∧ IsZero (cosSin x).2 := by
  cases x with
  | nan => exact h.elim
  | infinite s => exact h.elim
  | finite s n hn =>
    have hn0 : n = 0 := h
    simp only [cosSin, hn0, Nat.zero_mul, Nat.zero_mod, Nat.zero_div, firstQuarter_zero, ofSeries_one, true_and]
    rw [ofSeries, Nat.zero_mul]
    exact isZero_ofRatio_zero s _

/-- The direction of a zero angle is that of the x-axis. -/
theorem direction_of_isZero {degrees : Binary64} (h : IsZero degrees) :
    degrees.direction.1 = 1 ∧ IsZero degrees.direction.2 := by
  obtain ⟨n, hn, hradian, -⟩ := exists_radiansPerDegree
  exact cosSin_of_isZero (h.mul (hradian ▸ rfl))

end PlaneSketch.Binary64
