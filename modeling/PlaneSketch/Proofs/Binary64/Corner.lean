import PlaneSketch.Proofs.Binary64.Units
import PlaneSketch.Proofs.Rounding.Doubling

/-!
# Corners in units

The far corner of a drawing area is half its side, added to the rounded sum of that half and the padding; its length is
the side and twice the padding. Both are rounded, in different ways, and still the corner stays within every whole
number of pixels that the rounded length does not exceed. Where the half is exact, half and shift are each at most half
of the rounded length. Where it is not, the side is an odd number of units and next to nothing: it is rounded away
against the padding, or all of it stays within a single pixel.

* `round_corner_le`: the corner.
* `counts_coordinate`: every other point of the area stays between zero and the corner.
-/

namespace PlaneSketch.Binary64

/-! ### The corner in units -/

theorem double_round_mono {m n : ℕ} (h : m ≤ n) : Precision.double.round m 1 ≤ Precision.double.round n 1 :=
  Precision.double.monotone_round Nat.one_pos h

theorem le_round_add {m n : ℕ} (hm : Precision.double.Aligned m) : m ≤ Precision.double.round (m + n) 1 := by
  calc m = Precision.double.round m 1 := (Precision.double.round_of_aligned hm).symm
    _ ≤ Precision.double.round (m + n) 1 := double_round_mono (Nat.le_add_right m n)

theorem le_round_add' {m n : ℕ} (hm : Precision.double.Aligned m) : m ≤ Precision.double.round (n + m) 1 := by
  rw [Nat.add_comm]
  exact le_round_add hm

/-- An odd count of units has all of its digits below the point at which the spacing widens. -/
theorem lt_of_odd {n : ℕ} (hn : Precision.double.Aligned n) (hodd : ¬ 2 ∣ n) : n < 2 ^ 53 := by
  have hlog : Precision.double.spacingLog n = 0 := by
    -- a wider spacing would make the count even
    by_contra hne
    refine hodd (Nat.dvd_trans ?_ hn)
    exact Nat.dvd_trans (Nat.pow_dvd_pow 2 (Nat.one_le_iff_ne_zero.mpr hne) : 2 ^ 1 ∣ _) (Nat.dvd_refl _)
  have hlt := Precision.double.lt_two_pow_spacingLog n
  rwa [hlog] at hlt

variable {side padding k : ℕ}

/-- The corner of an area whose side has an exact half: the half and the rounded shift are at most half of the rounded
length each. -/
theorem round_corner_le_of_even (hside : Precision.double.Aligned side) (heven : 2 ∣ side) :
    Precision.double.round (Precision.double.round side 2 +
      Precision.double.round (Precision.double.round side 2 + padding) 1) 1 ≤
    Precision.double.round (side + 2 * padding) 1 := by
  have hhalf := Precision.double.two_mul_round_half rfl hside heven
  have haligned : Precision.double.Aligned (Precision.double.round side 2) := Precision.double.round_aligned _ _
  generalize Precision.double.round side 2 = half at hhalf haligned
  have hlow : half ≤ Precision.double.round (half + padding) 1 := le_round_add haligned
  calc Precision.double.round (half + Precision.double.round (half + padding) 1) 1
      ≤ Precision.double.round (2 * Precision.double.round (half + padding) 1) 1 := double_round_mono (by omega)
    _ = 2 * Precision.double.round (half + padding) 1 := by
        rw [Precision.double.round_two_mul rfl, Precision.double.round_of_aligned (Precision.double.round_aligned _ _)]
    _ = Precision.double.round (side + 2 * padding) 1 := by
        rw [← Precision.double.round_two_mul rfl, Nat.mul_add, hhalf]

/-- The corner of an area whose side is an odd count of units, and hence next to nothing. -/
theorem round_corner_le_of_odd (hside : Precision.double.Aligned side) (hpadding : Precision.double.Aligned padding)
    (hodd : ¬ 2 ∣ side) : Precision.double.round (Precision.double.round side 2 +
      Precision.double.round (Precision.double.round side 2 + padding) 1) 1 ≤
    max unitsPerOne (Precision.double.round (side + 2 * padding) 1) := by
  have hhalf : Precision.double.round side 2 < 2 ^ 53 := (round_half_le hside).trans_lt (lt_of_odd hside hodd)
  generalize Precision.double.round side 2 = half at hhalf
  obtain ⟨m, hm, hunits⟩ : ∃ m, m = 1072 ∧ unitsPerOne = 4 * 2 ^ m :=
    ⟨1072, rfl, by decide +kernel⟩
  have haligned : Precision.double.Aligned (2 * 2 ^ m) :=
    Precision.double.aligned_mul_two_pow (Nat.zero_le m) (by decide)
  have hsmall : 2 ^ 54 ≤ 2 ^ (m - 52) := Nat.pow_le_pow_right (by decide) (by omega)
  rcases Nat.lt_or_ge (2 ^ m) padding with hlt | hle
  · -- the half is rounded away, also when it is added again
    have hlog : m - 52 ≤ Precision.double.spacingLog padding := by
      refine Precision.double.le_spacingLog_of_two_pow_le ?_
      have hexponent : Precision.double.digits + (m - 52) - 1 = m := by
        show 53 + (m - 52) - 1 = m
        omega
      rw [hexponent]
      exact Nat.le_of_lt hlt
    have hspacing : 2 ^ (m - 52) ≤ Precision.double.spacing padding := Nat.pow_le_pow_right (by decide) hlog
    have hround := Precision.double.round_add_of_two_mul_lt hpadding (m := half) (by omega)
    rw [hround, hround]
    refine le_max_of_le_right ?_
    calc padding = Precision.double.round padding 1 := (Precision.double.round_of_aligned hpadding).symm
      _ ≤ Precision.double.round (side + 2 * padding) 1 := double_round_mono (by omega)
  · -- everything stays within one unit
    have hpow : 2 ^ (m - 52) ≤ 2 ^ m := Nat.pow_le_pow_right (by decide) (Nat.sub_le m 52)
    have hshift : Precision.double.round (half + padding) 1 ≤ 2 * 2 ^ m := by
      rw [← Precision.double.round_of_aligned haligned]
      exact double_round_mono (by omega)
    refine le_max_of_le_left ?_
    calc Precision.double.round (half + Precision.double.round (half + padding) 1) 1
        ≤ Precision.double.round unitsPerOne 1 := double_round_mono (by omega)
      _ = unitsPerOne := Precision.double.round_of_aligned fitsDouble_unitsPerOne.aligned

/-- **The corner** of an area stays within every whole number of pixels that its length, padding included, does not
exceed after rounding. -/
theorem round_corner_le (hside : Precision.double.Aligned side) (hpadding : Precision.double.Aligned padding)
    (hlength : Precision.double.round (side + 2 * padding) 1 ≤ k * unitsPerOne) :
    Precision.double.round (Precision.double.round side 2 +
      Precision.double.round (Precision.double.round side 2 + padding) 1) 1 ≤ k * unitsPerOne := by
  by_cases heven : 2 ∣ side
  · exact (round_corner_le_of_even hside heven).trans hlength
  · -- an odd side is not zero, so that at least one pixel is taken
    have hk : 1 ≤ k := by
      have hpos : Precision.double.round (side + 2 * padding) 1 ≠ 0 := round_ne_zero (by omega)
      rw [Nat.one_le_iff_ne_zero]
      rintro rfl
      omega
    refine (round_corner_le_of_odd hside hpadding heven).trans (max_le ?_ hlength)
    exact Nat.le_mul_of_pos_left _ hk

/-! ### Coordinates -/

variable {a x e : Binary64} {α u : ℤ} {half shift : ℕ}

/-- A factor between `-1` and `1` makes nothing larger. -/
theorem natAbs_productUnits_le (haligned : Precision.double.Aligned half) (hα : α.natAbs ≤ half)
    (hu : u.natAbs ≤ unitsPerOne) : (productUnits α u).natAbs ≤ half := by
  rw [productUnits, natAbs_onMagnitude, Int.natAbs_mul]
  calc Precision.double.round (α.natAbs * u.natAbs) unitsPerOne
      ≤ Precision.double.round (unitsPerOne * half) (unitsPerOne * 1) := by
        refine Precision.double.round_mono unitsPerOne_pos (Nat.mul_pos unitsPerOne_pos Nat.one_pos) ?_
        rw [Nat.mul_one, Nat.mul_comm unitsPerOne half]
        exact Nat.mul_le_mul_right _ (Nat.mul_le_mul hα hu)
    _ = half := by
        rw [Precision.round_mul_left _ unitsPerOne_pos, Precision.double.round_of_aligned haligned]

/-- A stretch by at most half a side and a shift by at least as much, inside the surface. -/
theorem counts_coordinate (ha : Counts a α) (hx : Counts x u) (he : Counts e shift)
    (haligned : Precision.double.Aligned half) (hα : α.natAbs ≤ half) (hu : u.natAbs ≤ unitsPerOne)
    (hle : half ≤ shift) (hlt : Precision.double.round (half + shift) 1 < Precision.double.limit) :
    Counts (0 + a * x + e) (sumUnits (productUnits α u) shift) ∧ 0 ≤ sumUnits (productUnits α u) shift ∧
      sumUnits (productUnits α u) shift ≤ Precision.double.round (half + shift) 1 := by
  have hproduct := natAbs_productUnits_le haligned hα hu
  have hlow : 0 ≤ sumUnits (productUnits α u) shift := by
    calc (0 : ℤ) ≤ sumUnits (-half) shift := by
          unfold sumUnits onMagnitude
          rw [if_neg (by omega)]
          exact Int.natCast_nonneg _
      _ ≤ sumUnits (productUnits α u) shift := sumUnits_mono (by omega) _
  have hhigh : sumUnits (productUnits α u) shift ≤ Precision.double.round (half + shift) 1 := by
    calc sumUnits (productUnits α u) shift ≤ sumUnits half shift := sumUnits_mono (by omega) _
      _ = Precision.double.round (half + shift) 1 := by
          rw [sumUnits, ← Nat.cast_add, onMagnitude_natCast]
  have hhalf : half < Precision.double.limit := (le_round_add haligned).trans_lt hlt
  have hstretched : Counts (0 + a * x) (productUnits α u) :=
    (ha.mul hx ((ha.isFinite_mul_iff hx).mpr (hproduct.trans_lt hhalf))).of_alike
      (alike_add_of_isZero_left isZero_zero).symm
  exact ⟨hstretched.add he ((hstretched.isFinite_add_iff he).mpr (by omega)), hlow, hhigh⟩

end PlaneSketch.Binary64
