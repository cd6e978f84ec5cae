import PlaneSketch.Proofs.Binary64.Special
import PlaneSketch.Proofs.Rounding.Nearest

/-!
# Halves, doubles and small terms

On a grid whose finest spacing is one, doubling commutes with the rounding of whole quantities, so that the half of an
even point is a point. A term that is small against the spacing around a point is rounded away.

* `round_two_mul`: doubling commutes with rounding.
* `two_mul_round_half`: the half of an even point is exact.
* `round_add_of_two_mul_lt`: small terms are rounded away.
-/

namespace PlaneSketch.Precision

variable (p : Precision)

/-- Doubling commutes with rounding: it doubles the spacing, except where every quantity is a point. -/
theorem round_two_mul (hfinest : p.finest = 0) (n : ℕ) : p.round (2 * n) 1 = 2 * p.round n 1 := by
  rcases Nat.lt_or_ge n (Nat.pow 2 p.digits) with hlt | hge
  · have hlog : p.spacingLog n = 0 := Nat.le_zero.mp (p.spacingLog_le_of_lt (by omega) (by simpa using hlt))
    have hn : p.Aligned n := by
      unfold Aligned spacing
      rw [hlog]
      exact Nat.one_dvd n
    rw [p.round_of_aligned hn, p.round_of_aligned (p.aligned_two_mul hn)]
  · have hn : n ≠ 0 := by
      have : 0 < Nat.pow 2 p.digits := Nat.two_pow_pos _
      omega
    have hlog : p.spacingLog (2 * n) = p.spacingLog n + 1 := by
      have hlow : p.digits ≤ n.log2 := (Nat.le_log2 hn).mpr hge
      unfold spacingLog
      rw [Nat.log2_two_mul hn]
      omega
    have hspacing : p.spacing (2 * n) = 2 * p.spacing n := by
      unfold spacing
      rw [hlog]
      exact Nat.pow_succ'
    simp only [round, Nat.div_one, Nat.one_mul, hspacing]
    rw [nearest_mul_left (by decide)]
    ring

/-- Rounding the half of an even point gives just the half. -/
theorem two_mul_round_half (hfinest : p.finest = 0) {n : ℕ} (hn : p.Aligned n) (heven : 2 ∣ n) :
    2 * p.round n 2 = n := by
  obtain ⟨m, rfl⟩ := heven
  have hhalf : p.round (2 * m) 2 = p.round m 1 := p.round_mul_left (by decide) m 1
  rw [hhalf, ← p.round_two_mul hfinest, p.round_of_aligned hn]

/-- A term that is less than half the spacing around a point is rounded away. -/
theorem round_add_of_two_mul_lt {n m : ℕ} (hn : p.Aligned n) (hm : 2 * m < p.spacing n) : p.round (m + n) 1 = n := by
  have hlow : n ≤ p.round (m + n) 1 := by
    calc n = p.round n 1 := (p.round_of_aligned hn).symm
      _ ≤ p.round (m + n) 1 := p.round_mono Nat.one_pos Nat.one_pos (by omega)
  have hnear : |(p.round (m + n) 1 * 1 - (m + n : ℕ) : ℤ)| ≤ |(n * 1 - (m + n : ℕ) : ℤ)| := by
    exact_mod_cast p.abs_round_sub_le Nat.one_pos (m + n) (m := n) hn
  have hhigh : p.round (m + n) 1 ≤ n + 2 * m := by
    have habs : |(n * 1 - (m + n : ℕ) : ℤ)| = m := by
      rw [abs_of_nonpos (by omega)]
      omega
    have := (le_abs_self _).trans (hnear.trans habs.le)
    omega
  have hdvd : p.spacing n ∣ p.round (m + n) 1 :=
    Nat.dvd_trans (Nat.pow_dvd_pow 2 (p.spacingLog_mono hlow)) (p.round_aligned _ _)
  have hzero : p.round (m + n) 1 - n = 0 := Nat.eq_zero_of_dvd_of_lt (Nat.dvd_sub hdvd hn) (by omega)
  omega

end PlaneSketch.Precision
