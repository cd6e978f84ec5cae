import Mathlib.Tactic.Linarith
import Mathlib.Tactic.Ring
import Mathlib.Tactic.SplitIfs
import PlaneSketch.Rounding

/-!
# Rounding keeps the order

Rounding to the nearest whole number and rounding to a floating grid are monotone, whatever the denominators of
the two quotients are. Where two quotients lie on parts of the grid with different spacings, a power of two
stands between them that is a point of both parts.

* `nearest_mono`: the nearest whole numbers of two quotients.
* `Precision.round_mono`: the nearest grid points of two quotients.
-/

namespace PlaneSketch

theorem floor_le_floor {m d n e : Nat} (hd : 0 < d) (he : 0 < e) (h : m * e ≤ n * d) : m / d ≤ n / e := by
  rw [Nat.le_div_iff_mul_le he]
  refine Nat.le_of_mul_le_mul_right ?_ hd
  calc m / d * e * d = m / d * d * e := Nat.mul_right_comm _ _ _
    _ ≤ m * e := Nat.mul_le_mul_right e (Nat.div_mul_le_self m d)
    _ ≤ n * d := h

/-- The nearest whole numbers of two quotients are ordered as these. -/
theorem nearest_mono {m d n e : Nat} (hd : 0 < d) (he : 0 < e) (h : m * e ≤ n * d) :
    nearest m d ≤ nearest n e := by
  rcases Nat.lt_or_eq_of_le (floor_le_floor hd he h) with hlt | heq
  · calc nearest m d ≤ m / d + 1 := nearest_le_succ m d
      _ ≤ n / e := hlt
      _ ≤ nearest n e := le_nearest n e
  · -- with equal floors the remainders decide, and these are ordered as the quotients
    have hrest : m % d * e ≤ n % e * d := by
      have hq : d * (m / d) * e = e * (n / e) * d := by rw [heq]; ring
      rw [← Nat.div_add_mod m d, ← Nat.div_add_mod n e] at h
      linarith
    have hlow : 2 * (n % e) < e → 2 * (m % d) < d := by
      intro hlt
      have := Nat.mul_lt_mul_of_pos_right hlt hd
      exact Nat.lt_of_mul_lt_mul_right (a := e) (by linarith)
    have hhigh : d < 2 * (m % d) → e < 2 * (n % e) := by
      intro hlt
      have := Nat.mul_lt_mul_of_pos_right hlt he
      exact Nat.lt_of_mul_lt_mul_right (a := d) (by linarith)
    have hparity : n / e % 2 < 2 := Nat.mod_lt _ (by decide)
    simp only [nearest, heq]
    split_ifs <;> omega

namespace Precision

variable (p : Precision)

theorem spacingLog_mono {m n : Nat} (h : m ≤ n) : p.spacingLog m ≤ p.spacingLog n :=
  p.spacingLog_le_of_lt (Nat.le_max_left _ _) (Nat.lt_of_le_of_lt h (p.lt_two_pow_spacingLog n))

theorem aligned_two_mul {n : Nat} (h : p.Aligned n) : p.Aligned (2 * n) := by
  have hlt : 2 * n < Nat.pow 2 (p.digits + (p.spacingLog n + 1)) := by
    have hn := p.lt_two_pow_spacingLog n
    rw [Nat.pow_eq] at hn
    rw [Nat.pow_eq, ← Nat.add_assoc, Nat.pow_succ]
    omega
  have hlog : p.spacingLog (2 * n) ≤ p.spacingLog n + 1 :=
    p.spacingLog_le_of_lt (Nat.le_succ_of_le (Nat.le_max_left _ _)) hlt
  calc p.spacing (2 * n) ∣ 2 ^ (p.spacingLog n + 1) := Nat.pow_dvd_pow 2 hlog
    _ = 2 * p.spacing n := Nat.pow_succ'
    _ ∣ 2 * n := Nat.mul_dvd_mul_left 2 h

/-- A point of the grid above a quotient stays above it. -/
theorem round_le_of_dvd {m d k : Nat} (hd : 0 < d) (hk : p.spacing (m / d) ∣ k) (h : m ≤ k * d) :
    p.round m d ≤ k := by
  obtain ⟨j, rfl⟩ := hk
  have hpos := Nat.mul_pos hd (p.spacing_pos (m / d))
  have hj : nearest m (d * p.spacing (m / d)) ≤ j := by
    calc nearest m (d * p.spacing (m / d))
        ≤ nearest (j * (d * p.spacing (m / d))) (d * p.spacing (m / d)) :=
          nearest_mono hpos hpos (Nat.mul_le_mul_right _ (by linarith))
      _ = j := nearest_mul j hpos
  calc p.round m d = nearest m (d * p.spacing (m / d)) * p.spacing (m / d) := rfl
    _ ≤ j * p.spacing (m / d) := Nat.mul_le_mul_right _ hj
    _ = p.spacing (m / d) * j := Nat.mul_comm _ _

/-- A point of the grid below a quotient stays below it. -/
theorem le_round_of_dvd {n e k : Nat} (hk : p.spacing (n / e) ∣ k) (h : k ≤ n / e) : k ≤ p.round n e := by
  obtain ⟨j, rfl⟩ := hk
  have hj : j ≤ nearest n (e * p.spacing (n / e)) := by
    refine Nat.le_trans ?_ (le_nearest _ _)
    rw [← Nat.div_div_eq_div_mul, Nat.le_div_iff_mul_le (p.spacing_pos (n / e))]
    linarith
  calc p.spacing (n / e) * j = j * p.spacing (n / e) := Nat.mul_comm _ _
    _ ≤ p.round n e := Nat.mul_le_mul_right _ hj

/-- The nearest grid points of two quotients are ordered as these. -/
theorem round_mono {m d n e : Nat} (hd : 0 < d) (he : 0 < e) (h : m * e ≤ n * d) : p.round m d ≤ p.round n e := by
  rcases Nat.lt_or_eq_of_le (p.spacingLog_mono (floor_le_floor hd he h)) with hlt | heq
  · -- the power of two at which the wider spacing begins stands between the quotients
    have hdigits := p.digits_pos
    have hfinest : p.finest ≤ p.spacingLog (m / d) := Nat.le_max_left _ _
    obtain ⟨k, hk⟩ : ∃ k, p.spacingLog (n / e) = k + 1 := Nat.exists_eq_add_one_of_ne_zero (by omega)
    have hbelow : m / d < Nat.pow 2 (p.digits + k) :=
      Nat.lt_of_lt_of_le (p.lt_two_pow_spacingLog (m / d)) (Nat.pow_le_pow_right (by decide) (by omega))
    have habove : Nat.pow 2 (p.digits + k) ≤ n / e := by
      rw [← Nat.not_lt]
      intro hn
      have := p.spacingLog_le_of_lt (by omega) hn
      omega
    have hm : m ≤ Nat.pow 2 (p.digits + k) * d := Nat.le_of_lt ((Nat.div_lt_iff_lt_mul hd).mp hbelow)
    calc p.round m d ≤ Nat.pow 2 (p.digits + k) :=
          p.round_le_of_dvd hd (Nat.pow_dvd_pow 2 (by omega)) hm
      _ ≤ p.round n e := p.le_round_of_dvd (Nat.pow_dvd_pow 2 (by omega)) habove
  · have hs : p.spacing (m / d) = p.spacing (n / e) := congrArg (Nat.pow 2) heq
    have hpos := p.spacing_pos (n / e)
    have hscaled : m * (e * p.spacing (n / e)) ≤ n * (d * p.spacing (n / e)) := by
      rw [← Nat.mul_assoc, ← Nat.mul_assoc]
      exact Nat.mul_le_mul_right _ h
    simp only [round, hs]
    exact Nat.mul_le_mul_right _ (nearest_mono (Nat.mul_pos hd hpos) (Nat.mul_pos he hpos) hscaled)

theorem monotone_round {d : Nat} (hd : 0 < d) : Monotone (p.round · d) := fun _ _ h =>
  p.round_mono hd hd (Nat.mul_le_mul_right d h)

end Precision

end PlaneSketch
