import PlaneSketch.Proofs.Binary64.Nearest
import PlaneSketch.Proofs.Decimal.Value

/-!
# The exact value of a decimal

A decimal is a rational number, and reading it as a double depends on nothing else: the result is the double nearest
to it, and it is finite exactly below `2 ^ 1024 - 2 ^ 970`.

* `toBinary64_congr`: decimals of the same value read as the same double.
* `isFinite_toBinary64_iff`, `isNearest_toBinary64`: which double that is.
-/

namespace PlaneSketch

open Binary64

theorem Binary64.cast_overflowUnits : (overflowUnits : ℚ) = (2 ^ 1024 - 2 ^ 970) * unitsPerOne := by
  obtain ⟨k, m, hk, hm, hle, hunits⟩ : ∃ k m, k = 970 ∧ m = 1024 ∧ k ≤ m ∧
      overflowUnits = (Nat.pow 2 m - Nat.pow 2 k) * unitsPerOne :=
    ⟨970, 1024, rfl, rfl, by decide, by unfold overflowUnits; rfl⟩
  rw [hunits, ← hk, ← hm, Nat.pow_eq, Nat.pow_eq, Nat.cast_mul, Nat.cast_sub (Nat.pow_le_pow_right (by decide) hle),
    Nat.cast_pow, Nat.cast_pow, Nat.cast_ofNat]

namespace Decimal

/-- The exact value. -/
def rational (d : Decimal) : ℚ := d.coefficient * 10 ^ d.exponent

theorem rational_sub (c a b : ℕ) : rational ⟨c, a - b⟩ = (c * 10 ^ a : ℕ) / (10 ^ b : ℕ) := by
  rw [rational, zpow_sub₀ (by decide), zpow_natCast, zpow_natCast]
  push_cast
  ring

theorem rational_nonneg (d : Decimal) : 0 ≤ d.rational :=
  mul_nonneg (Nat.cast_nonneg _) (zpow_nonneg (by decide) _)

/-- Zeros at the end of the coefficient count as much as the exponent they stand for. -/
theorem rational_mul_pow (c k : ℕ) (e : ℤ) : rational ⟨c * 10 ^ k, e⟩ = rational ⟨c, e + k⟩ := by
  rw [rational, rational, zpow_add₀ (by decide), zpow_natCast]
  push_cast
  ring

theorem cast_ten_pow_pos (k : ℕ) : (0 : ℚ) < (10 ^ k : ℕ) := Nat.cast_pos.mpr (Nat.pow_pos (by decide))

theorem exists_exponent_eq_sub (e : ℤ) : ∃ a b : ℕ, e = a - b := ⟨e.toNat, (-e).toNat, by omega⟩

/-- Decimals of the same value read as the same double. -/
theorem toBinary64_congr {d d' : Decimal} (h : d.rational = d'.rational) (s : Bool) :
    d.toBinary64 s = d'.toBinary64 s := by
  obtain ⟨c, e⟩ := d
  obtain ⟨c', e'⟩ := d'
  obtain ⟨a, b, rfl⟩ := exists_exponent_eq_sub e
  obtain ⟨a', b', rfl⟩ := exists_exponent_eq_sub e'
  rw [rational_sub, rational_sub, div_eq_div_iff (cast_ten_pow_pos b).ne' (cast_ten_pow_pos b').ne'] at h
  have hcross : c * 10 ^ a * 10 ^ b' = c' * 10 ^ a' * 10 ^ b := by exact_mod_cast h
  have hnum : 10 ^ b' * (c * 10 ^ a * unitsPerOne) = 10 ^ b * (c' * 10 ^ a' * unitsPerOne) := by
    calc 10 ^ b' * (c * 10 ^ a * unitsPerOne) = c * 10 ^ a * 10 ^ b' * unitsPerOne := by ring
      _ = c' * 10 ^ a' * 10 ^ b * unitsPerOne := by rw [hcross]
      _ = 10 ^ b * (c' * 10 ^ a' * unitsPerOne) := by ring
  rw [toBinary64_eq_ofRatio, toBinary64_eq_ofRatio]
  calc ofRatio s (c * 10 ^ a * unitsPerOne) (10 ^ b)
      = ofRatio s (10 ^ b' * (c * 10 ^ a * unitsPerOne)) (10 ^ b' * 10 ^ b) :=
        (ofRatio_mul_left (Nat.pow_pos (by decide)) s _ _).symm
    _ = ofRatio s (10 ^ b * (c' * 10 ^ a' * unitsPerOne)) (10 ^ b * 10 ^ b') := by
        rw [hnum, Nat.mul_comm (10 ^ b')]
    _ = ofRatio s (c' * 10 ^ a' * unitsPerOne) (10 ^ b') := ofRatio_mul_left (Nat.pow_pos (by decide)) s _ _

/-! ### The nearest double -/

theorem isFinite_toBinary64_iff (d : Decimal) (s : Bool) :
    (d.toBinary64 s).isFinite = true ↔ d.rational < 2 ^ 1024 - 2 ^ 970 := by
  obtain ⟨c, e⟩ := d
  obtain ⟨a, b, rfl⟩ := exists_exponent_eq_sub e
  have hunits := cast_unitsPerOne_pos
  rw [toBinary64_eq_ofRatio, isFinite_ofRatio_iff (Nat.pow_pos (by decide)), rational_sub,
    div_lt_iff₀ (cast_ten_pow_pos b), ← mul_lt_mul_iff_left₀ hunits, mul_right_comm _ _ (unitsPerOne : ℚ), ← cast_overflowUnits]
  norm_cast

theorem isNearest_toBinary64 {d : Decimal} {s : Bool} (hfin : (d.toBinary64 s).isFinite = true) :
    (d.toBinary64 s).IsNearest (if s then -d.rational else d.rational) := by
  obtain ⟨c, e⟩ := d
  obtain ⟨a, b, rfl⟩ := exists_exponent_eq_sub e
  have hunits := cast_unitsPerOne_pos.ne'
  have hvalue : ratioValue s (c * 10 ^ a * unitsPerOne) (10 ^ b) =
      if s then -rational ⟨c, a - b⟩ else rational ⟨c, a - b⟩ := by
    rw [ratioValue, rational_sub]
    cases s <;> simp <;> field_simp
  rw [toBinary64_eq_ofRatio] at hfin ⊢
  rw [← hvalue]
  exact isNearest_ofRatio (Nat.pow_pos (by decide)) hfin

theorem isNegative_toBinary64 (d : Decimal) (s : Bool) : (d.toBinary64 s).isNegative = s := by
  obtain ⟨c, e⟩ := d
  obtain ⟨a, b, rfl⟩ := exists_exponent_eq_sub e
  rw [toBinary64_eq_ofRatio, isNegative_ofRatio]

end Decimal

end PlaneSketch
