import Mathlib.Algebra.Order.Group.Int
import Mathlib.Algebra.Order.Ring.Abs
import Mathlib.Data.Nat.ModEq
import PlaneSketch.Proofs.Rounding.Monotone

/-!
# Rounding finds the nearest point

The nearest whole number is no further from a quotient than any other one, and it is even where another one is just as
near. The same holds of a floating grid as a whole, although its spacing changes: a point that does not fit the spacing
around the quotient lies below the part of the grid with that spacing, and the quotient does not.

* `abs_nearest_sub_le`, `two_dvd_nearest`: whole numbers.
* `Precision.abs_round_sub_le`, `Precision.two_mul_spacing_dvd_round`: points of a grid, of either sign.
* `Precision.round_lt_limit_iff`: the quotients that stay in range.
* `Precision.mul_two_pow_le_round_mul`: what rounding down takes away, as a part of the result.
-/

namespace PlaneSketch

variable {n d : ℕ}

/-! ### Whole numbers -/

/-- The distance to the nearest whole number is the remainder, or what is missing to the next one. -/
theorem abs_nearest_sub_cases (hd : 0 < d) (n : ℕ) :
    (2 * (n % d) ≤ d ∧ |(nearest n d * d - n : ℤ)| = (n % d : ℕ)) ∨
      (d ≤ 2 * (n % d) ∧ |(nearest n d * d - n : ℤ)| = d - (n % d : ℕ)) := by
  have hn : (d : ℤ) * (n / d : ℕ) + (n % d : ℕ) = n := by exact_mod_cast Nat.div_add_mod n d
  have hrest : n % d < d := Nat.mod_lt n hd
  have hparity : n / d % 2 < 2 := Nat.mod_lt _ (by decide)
  -- a tie may go either way, so both cases allow for equality
  have hcases : (nearest n d = n / d ∧ 2 * (n % d) ≤ d) ∨ (nearest n d = n / d + 1 ∧ d ≤ 2 * (n % d)) := by
    unfold nearest
    dsimp only
    split_ifs <;> omega
  rcases hcases with ⟨h, hr⟩ | ⟨h, hr⟩
  · refine .inl ⟨hr, ?_⟩
    have hdist : (nearest n d * d - n : ℤ) = -(n % d : ℕ) := by
      rw [h]
      linarith
    rw [hdist, abs_neg, Nat.abs_cast]
  · refine .inr ⟨hr, ?_⟩
    have hdist : (nearest n d * d - n : ℤ) = d - (n % d : ℕ) := by
      rw [h, Nat.cast_add_one]
      linarith
    rw [hdist, abs_of_nonneg (by omega)]

theorem two_mul_abs_nearest_sub_le (hd : 0 < d) (n : ℕ) : 2 * |(nearest n d * d - n : ℤ)| ≤ d := by
  rcases abs_nearest_sub_cases hd n with ⟨hr, h⟩ | ⟨hr, h⟩ <;> omega

/-- Another whole number is at least a step away from the nearest one. -/
theorem le_abs_nearest_sub_add {m : ℤ} (hm : m ≠ nearest n d) :
    (d : ℤ) ≤ |m * d - n| + |(nearest n d * d - n : ℤ)| := by
  have hstep : 1 ≤ |m - nearest n d| := Int.one_le_abs (sub_ne_zero.mpr hm)
  calc (d : ℤ) ≤ |m - nearest n d| * d := le_mul_of_one_le_left (Int.natCast_nonneg d) hstep
    _ = |m * d - n - (nearest n d * d - n)| := by
        rw [← Nat.abs_cast d, ← abs_mul, Nat.abs_cast]
        congr 1
        ring
    _ ≤ |m * d - n| + |(nearest n d * d - n : ℤ)| := abs_sub _ _

/-- No whole number is nearer than the nearest one. -/
theorem abs_nearest_sub_le (hd : 0 < d) (n : ℕ) (m : ℤ) : |(nearest n d * d - n : ℤ)| ≤ |m * d - n| := by
  by_cases hm : m = nearest n d
  · rw [hm]
  · have hfar := le_abs_nearest_sub_add hm
    have hnear := two_mul_abs_nearest_sub_le hd n
    linarith

/-- What is less than half a step away is the nearest whole number. -/
theorem nearest_eq_of_two_mul_lt {m : ℤ} (h : 2 * |m * d - n| < d) : (nearest n d : ℤ) = m := by
  have hd : 0 < d := by
    have := abs_nonneg (m * d - n)
    omega
  by_contra hne
  have hfar := le_abs_nearest_sub_add (Ne.symm hne)
  have hnear := abs_nearest_sub_le hd n m
  omega

/-- Where another whole number is just as near, the nearest one is even. -/
theorem two_dvd_nearest (hd : 0 < d) {m : ℤ} (hm : m ≠ nearest n d)
    (htie : |(nearest n d * d - n : ℤ)| = |m * d - n|) : 2 ∣ nearest n d := by
  have hfar := le_abs_nearest_sub_add hm
  have hnear := two_mul_abs_nearest_sub_le hd n
  have hhalf : 2 * (n % d) = d := by
    rcases abs_nearest_sub_cases hd n with ⟨hr, h⟩ | ⟨hr, h⟩ <;> omega
  unfold nearest
  dsimp only
  rw [if_neg (by omega), if_neg (by omega)]
  omega

/-- What is below a point under the quotient is further away than this point. -/
theorem abs_sub_lt_abs_sub {m b : ℤ} (hd : 0 < d) (hmb : m < b) (hb : b * d ≤ n) : |b * d - n| < |m * d - n| := by
  have hd : (0 : ℤ) < d := Int.natCast_pos.mpr hd
  have hlt : m * d < b * d := Int.mul_lt_mul_of_pos_right hmb hd
  rw [abs_of_nonpos (by linarith), abs_of_nonpos (by linarith)]
  linarith

/-! ### Points of a grid -/

namespace Precision

variable (p : Precision)

/-- Rounding to a grid is rounding to a whole number of spacings. -/
theorem round_mul_eq (n d : ℕ) :
    (p.round n d * d : ℤ) = nearest n (d * p.spacing (n / d)) * (d * p.spacing (n / d) : ℕ) := by
  simp only [round]
  push_cast
  ring

/-- Rounding to a grid goes at most half of the spacing around the quotient. -/
theorem two_mul_abs_round_sub_le (hd : 0 < d) (n : ℕ) :
    2 * |(p.round n d * d - n : ℤ)| ≤ d * p.spacing (n / d) := by
  rw [round_mul_eq]
  exact_mod_cast two_mul_abs_nearest_sub_le (Nat.mul_pos hd (p.spacing_pos (n / d))) n

theorem abs_round_sub_le_of_dvd (hd : 0 < d) (n : ℕ) {m : ℤ} (hm : (p.spacing (n / d) : ℤ) ∣ m) :
    |(p.round n d * d - n : ℤ)| ≤ |m * d - n| := by
  obtain ⟨j, rfl⟩ := hm
  have hpoint : (p.spacing (n / d) * j * d : ℤ) = j * (d * p.spacing (n / d) : ℕ) := by
    push_cast
    ring
  rw [round_mul_eq, hpoint]
  exact abs_nearest_sub_le (Nat.mul_pos hd (p.spacing_pos (n / d))) n j

/-- A point of the grid that does not fit the spacing around a quotient is below some point that does, and this one is
not above the quotient. -/
theorem exists_dvd_between {m : ℕ} (hm : p.Aligned m) (hno : ¬ p.spacing (n / d) ∣ m) :
    ∃ b, p.spacing (n / d) ∣ b ∧ m < b ∧ b ≤ n / d := by
  have hlog : p.spacingLog m < p.spacingLog (n / d) := by
    by_contra hle
    exact hno (Nat.dvd_trans (Nat.pow_dvd_pow 2 (Nat.not_lt.mp hle)) hm)
  have hm0 : m ≠ 0 := by
    rintro rfl
    exact hno (Nat.dvd_zero _)
  have hdigits := p.digits_pos
  unfold spacingLog at hlog
  have hq : n / d ≠ 0 := by
    intro hq
    rw [hq, Nat.log2_zero] at hlog
    omega
  refine ⟨2 ^ (n / d).log2, ?_, ?_, Nat.log2_self_le hq⟩
  · refine Nat.pow_dvd_pow 2 ?_
    unfold spacingLog
    omega
  · exact (Nat.log2_lt hm0).mp (by omega)

/-- A point of the grid, of either sign, fits the spacing around the quotient, or it is further away than a point
that does. -/
theorem dvd_or_abs_round_sub_lt (hd : 0 < d) (n : ℕ) {m : ℤ} (hm : p.Aligned m.natAbs) :
    (p.spacing (n / d) : ℤ) ∣ m ∨ |(p.round n d * d - n : ℤ)| < |m * d - n| := by
  by_cases hdvd : (p.spacing (n / d) : ℤ) ∣ m
  · exact .inl hdvd
  · obtain ⟨b, hb, hlt, hle⟩ : ∃ b : ℕ, p.spacing (n / d) ∣ b ∧ m < b ∧ b ≤ n / d := by
      rcases Int.lt_or_le m 0 with hneg | hpos
      · exact ⟨0, Nat.dvd_zero _, hneg, Nat.zero_le _⟩
      · obtain ⟨k, rfl⟩ := Int.eq_ofNat_of_zero_le hpos
        obtain ⟨b, hb, hlt, hle⟩ := p.exists_dvd_between (n := n) (d := d) hm
          (fun hk => hdvd (Int.natCast_dvd_natCast.mpr hk))
        exact ⟨b, hb, by exact_mod_cast hlt, hle⟩
    have hbn : (b * d : ℤ) ≤ n := by exact_mod_cast (Nat.le_div_iff_mul_le hd).mp hle
    refine .inr ?_
    calc |(p.round n d * d - n : ℤ)| ≤ |(b * d - n : ℤ)| :=
          p.abs_round_sub_le_of_dvd hd n (Int.natCast_dvd_natCast.mpr hb)
      _ < |m * d - n| := abs_sub_lt_abs_sub hd hlt hbn

/-- Rounding does not leave the part of the grid around the quotient, except for the point at its upper end. -/
theorem round_le_two_pow (hd : 0 < d) (n : ℕ) : p.round n d ≤ Nat.pow 2 (p.digits + p.spacingLog (n / d)) := by
  refine p.round_le_of_dvd hd (Nat.pow_dvd_pow 2 (Nat.le_add_left _ _)) ?_
  exact Nat.le_of_lt ((Nat.div_lt_iff_lt_mul hd).mp (p.lt_two_pow_spacingLog (n / d)))

/-- **No point of the grid** is nearer than the rounded quotient. -/
theorem abs_round_sub_le (hd : 0 < d) (n : ℕ) {m : ℤ} (hm : p.Aligned m.natAbs) :
    |(p.round n d * d - n : ℤ)| ≤ |m * d - n| := by
  rcases p.dvd_or_abs_round_sub_lt hd n hm with hdvd | hlt
  · exact p.abs_round_sub_le_of_dvd hd n hdvd
  · exact hlt.le

/-- Where another point of the grid is just as near, the rounded quotient is an even multiple of its own spacing. -/
theorem two_mul_spacing_dvd_round (hdigits : 2 ≤ p.digits) (hd : 0 < d) {m : ℤ} (hm : p.Aligned m.natAbs)
    (hne : m ≠ p.round n d) (htie : |(p.round n d * d - n : ℤ)| = |m * d - n|) :
    2 * p.spacing (p.round n d) ∣ p.round n d := by
  -- a point of the grid that is no multiple of the spacing would be further away
  obtain ⟨j, rfl⟩ := (p.dvd_or_abs_round_sub_lt hd n hm).resolve_right htie.not_lt
  have hround : p.round n d = nearest n (d * p.spacing (n / d)) * p.spacing (n / d) := rfl
  have heven : 2 ∣ nearest n (d * p.spacing (n / d)) := by
    refine two_dvd_nearest (m := j) (Nat.mul_pos hd (p.spacing_pos (n / d))) ?_ ?_
    · rintro rfl
      refine hne ?_
      rw [hround, Nat.cast_mul, mul_comm]
    · have hpoint : (j * (d * p.spacing (n / d) : ℕ) : ℤ) = p.spacing (n / d) * j * d := by
        push_cast
        ring
      rw [hpoint, ← round_mul_eq]
      exact htie
  rcases (p.round_le_two_pow hd n).lt_or_eq with hlt | heq
  · -- the spacing around the result is at most that around the quotient
    have hspacing : p.spacing (p.round n d) ∣ p.spacing (n / d) :=
      Nat.pow_dvd_pow 2 (p.spacingLog_le_of_lt (Nat.le_max_left _ _) hlt)
    rw [hround] at hspacing ⊢
    exact Nat.mul_dvd_mul heven hspacing
  · -- the result is the power of two at which a wider spacing begins
    have hlog : p.spacingLog (p.round n d) ≤ p.spacingLog (n / d) + 1 := by
      refine p.spacingLog_le_of_lt (Nat.le_succ_of_le (Nat.le_max_left _ _)) ?_
      rw [heq]
      exact Nat.pow_lt_pow_right (by decide) (by omega)
    calc 2 * p.spacing (p.round n d) = 2 ^ (p.spacingLog (p.round n d) + 1) := Nat.pow_succ'.symm
      _ ∣ 2 ^ (p.digits + p.spacingLog (n / d)) := Nat.pow_dvd_pow 2 (by omega)
      _ = p.round n d := heq.symm

/-! ### The range -/

/-- **Quotients are rounded into the range** below the point half-way between its greatest point and its limit, if that
point itself is rounded to the limit. -/
theorem round_lt_limit_iff (greatest half : ℕ) (hgreatest : p.Aligned greatest) (hbelow : greatest < p.limit)
    (hhalf : 2 * half = greatest + p.limit) (htie : p.limit ≤ p.round half 1) {num den : ℕ} (hden : 0 < den) :
    p.round num den < p.limit ↔ num < half * den := by
  constructor
  · intro hlt
    by_contra hle
    have hmono := p.round_mono Nat.one_pos hden (m := half) (n := num) (by omega)
    omega
  · -- above the greatest point, that one is nearer than the limit
    intro hlt
    rcases le_or_gt num (greatest * den) with hle | hgt
    · calc p.round num den ≤ p.round greatest 1 := p.round_mono hden Nat.one_pos (by omega)
        _ = greatest := p.round_of_aligned hgreatest
        _ < p.limit := hbelow
    · have hnear := p.abs_round_sub_le hden num (m := greatest) hgreatest
      have hgt : (greatest * den : ℤ) < num := by exact_mod_cast hgt
      have habove : |(greatest * den - num : ℤ)| = num - greatest * den := by
        rw [abs_of_neg (by linarith), neg_sub]
      -- the greatest point mirrored in the quotient stays below the limit, as the quotient is below the point half-way
      have hround : (p.round num den * den : ℤ) < p.limit * den := by
        calc (p.round num den * den : ℤ) ≤ 2 * num - greatest * den := by
              have := (le_abs_self _).trans (hnear.trans habove.le)
              linarith
          _ < 2 * (half * den : ℕ) - greatest * den := by
              have : (num : ℤ) < (half * den : ℕ) := by exact_mod_cast hlt
              linarith
          _ = p.limit * den := by
              have : (2 * half : ℤ) = greatest + p.limit := by exact_mod_cast hhalf
              push_cast
              rw [← mul_assoc, this]
              ring
      exact_mod_cast lt_of_mul_lt_mul_right hround (Int.natCast_nonneg den)

/-! ### Where a spacing begins -/

/-- A spacing wider than the finest one is in use only from a power of two on. -/
theorem two_pow_le_of_finest_lt {n : ℕ} (h : p.finest < p.spacingLog n) :
    Nat.pow 2 (p.digits + p.spacingLog n - 1) ≤ n := by
  have hdigits := p.digits_pos
  by_contra hlt
  have hle := p.spacingLog_le_of_lt (n := n) (k := p.spacingLog n - 1) (by omega) (by
    rw [← Nat.add_sub_assoc (by omega)]
    exact Nat.not_le.mp hlt)
  omega

theorem le_spacingLog_of_two_pow_le {n k : ℕ} (h : Nat.pow 2 (p.digits + k - 1) ≤ n) : k ≤ p.spacingLog n := by
  have hlt : 2 ^ (p.digits + k - 1) < 2 ^ (p.digits + p.spacingLog n) :=
    Nat.lt_of_le_of_lt h (p.lt_two_pow_spacingLog n)
  have hdigits := p.digits_pos
  have := (Nat.pow_lt_pow_iff_right (by decide : 1 < 2)).mp hlt
  omega

/-- The spacing around the rounded quotient is no finer than that around the quotient. -/
theorem spacingLog_le_spacingLog_round (n d : ℕ) : p.spacingLog (n / d) ≤ p.spacingLog (p.round n d) := by
  have hfinest : p.finest ≤ p.spacingLog (p.round n d) := Nat.le_max_left _ _
  rcases Nat.lt_or_ge p.finest (p.spacingLog (n / d)) with hlt | hge
  · have hdigits := p.digits_pos
    refine p.le_spacingLog_of_two_pow_le ?_
    exact p.le_round_of_dvd (Nat.pow_dvd_pow 2 (by omega)) (p.two_pow_le_of_finest_lt hlt)
  · omega

/-- On a grid whose finest spacing is one, a whole quantity exceeds the rounded one by at most one part in
`2 ^ digits`. -/
theorem mul_two_pow_le_round_mul (hfinest : p.finest = 0) (n : ℕ) :
    n * 2 ^ p.digits ≤ p.round n 1 * (2 ^ p.digits + 1) := by
  rcases Nat.eq_zero_or_pos (p.spacingLog n) with hlog | hlog
  · have hn : p.Aligned n := by
      unfold Aligned spacing
      rw [hlog]
      exact Nat.one_dvd n
    rw [p.round_of_aligned hn]
    exact Nat.mul_le_mul_left n (Nat.le_succ _)
  · -- the power of two at which the spacing begins is not above the rounded quantity either
    have hdigits := p.digits_pos
    have hbegin : (2 ^ (p.digits + p.spacingLog n - 1) : ℤ) ≤ p.round n 1 := by
      have hbelow : Nat.pow 2 (p.digits + p.spacingLog n - 1) ≤ p.round n 1 := by
        refine p.le_round_of_dvd ?_ ?_ <;> rw [Nat.div_one]
        · exact Nat.pow_dvd_pow 2 (by omega)
        · exact p.two_pow_le_of_finest_lt (by omega)
      exact_mod_cast hbelow
    have hspacing : (2 ^ p.digits * p.spacing n : ℤ) = 2 * 2 ^ (p.digits + p.spacingLog n - 1) := by
      have hpower : 2 ^ p.digits * p.spacing n = 2 * 2 ^ (p.digits + p.spacingLog n - 1) := by
        rw [← Nat.pow_succ', spacing, Nat.pow_eq, ← Nat.pow_add]
        congr 1
        omega
      exact_mod_cast hpower
    have hnear : 2 * (n - p.round n 1 : ℤ) ≤ p.spacing n := by
      have hhalf := p.two_mul_abs_round_sub_le Nat.one_pos n
      rw [Nat.div_one, Nat.cast_one, mul_one, one_mul] at hhalf
      linarith [neg_abs_le (p.round n 1 - n : ℤ)]
    have hscaled : (2 ^ p.digits : ℤ) * (2 * (n - p.round n 1)) ≤ 2 ^ p.digits * p.spacing n :=
      mul_le_mul_of_nonneg_left hnear (by positivity)
    zify
    linarith

/-- A point of the grid within a spacing of another one is that point itself, unless that is where the spacing begins
and the points below it are closer. -/
theorem eq_of_abs_sub_lt_spacing {n z : ℕ} (hn : p.Aligned n) (hz : p.Aligned z)
    (hbegin : Nat.pow 2 (p.digits + p.spacingLog n - 1) < n) (h : |(z - n : ℤ)| < p.spacing n) : z = n := by
  have hdigits := p.digits_pos
  -- `n` is a whole spacing above the power of two, so `z` is not below it and lies on the same grid
  have hlow : Nat.pow 2 (p.digits + p.spacingLog n - 1) + p.spacing n ≤ n :=
    have hpower : p.spacing n ∣ Nat.pow 2 (p.digits + p.spacingLog n - 1) := Nat.pow_dvd_pow 2 (by omega)
    ((Nat.modEq_zero_iff_dvd.mpr hpower).trans (Nat.modEq_zero_iff_dvd.mpr hn).symm).add_le_of_lt hbegin
  have hdvd : p.spacing n ∣ z := by
    refine Nat.dvd_trans (Nat.pow_dvd_pow 2 (p.le_spacingLog_of_two_pow_le ?_)) hz
    rw [abs_lt] at h
    omega
  have hdiff := dvd_sub (Int.natCast_dvd_natCast.mpr hdvd) (Int.natCast_dvd_natCast.mpr hn)
  have hzero := Int.eq_zero_of_abs_lt_dvd hdiff h
  omega

end Precision

end PlaneSketch
