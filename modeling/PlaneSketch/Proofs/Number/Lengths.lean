import PlaneSketch.Proofs.Binary64.Units
import PlaneSketch.Proofs.Number.Rational
import PlaneSketch.Proofs.Rounding.Doubling

/-!
# Lengths in units

A number that is not below zero becomes a double that counts a number of units from zero on. Twice the number counts
twice as many, since doubling never rounds, and its ceiling is no smaller than the count.

* `Number.exists_counts`: the count of a length.
* `Number.counts_double`, `Number.counts_add_double`: twice a length, alone and added to another one.
* `Number.le_ceiling`: the whole number above a length.
-/

namespace PlaneSketch

open Binary64

/-- Whole numbers of pixels within a machine word are doubles. -/
theorem Binary64.fitsDouble_mul_unitsPerOne {i : ℕ} (hi : i < 2 ^ 31) : FitsDouble (i * unitsPerOne) := by
  refine ⟨?_, ?_⟩
  · obtain ⟨m, hunits⟩ : ∃ m, unitsPerOne = Nat.pow 2 m := ⟨1074, by decide +kernel⟩
    have hdigits : i ≤ Nat.pow 2 Precision.double.digits := by
      show i ≤ 2 ^ 53
      omega
    rw [hunits]
    exact Precision.double.aligned_mul_two_pow (Nat.zero_le m) hdigits
  · have hlimit : 2 ^ 31 * unitsPerOne ≤ Precision.double.limit := by decide +kernel
    exact (Nat.mul_lt_mul_of_pos_right hi unitsPerOne_pos).trans_le hlimit

namespace Number

variable {n : Number} {x y : Binary64} {m : ℕ}

theorem toBinary64_eq_ok_iff : n.toBinary64 = .ok x ↔ n.toBinary64? = some x := by
  unfold toBinary64 toBinary64Or
  split <;> simp_all

theorem toBinary64?_int_eq_some_iff {i : ℤ} :
    (int i).toBinary64? = some x ↔ (ofInt i).isFinite = true ∧ ofInt i = x := by
  show (if (ofInt i).isFinite = true then some (ofInt i) else none) = some x ↔ _
  split <;> simp_all

/-- An integer is a number of ones, rounded. -/
theorem counts_of_intCast {i : ℤ} (hx : (int i).toBinary64? = some x) :
    Counts x (onMagnitude (Precision.double.round · 1) (i * unitsPerOne)) := by
  obtain ⟨hfin, rfl⟩ := toBinary64?_int_eq_some_iff.mp hx
  have hcount := counts_ofRatio hfin
  have hsign : (if decide (i < 0) = true then -((i.natAbs * unitsPerOne : ℕ) : ℤ) else (i.natAbs * unitsPerOne : ℕ)) =
      i * unitsPerOne := by
    have habs : ((i.natAbs * unitsPerOne : ℕ) : ℤ) = |i| * unitsPerOne := by push_cast; rfl
    rw [habs]
    split_ifs with hneg
    · rw [abs_of_neg (of_decide_eq_true hneg)]
      ring
    · rw [abs_of_nonneg (by simpa using hneg)]
  rwa [hsign] at hcount

theorem counts_of_natCast {i : ℕ} (hx : (int i).toBinary64? = some x) :
    Counts x (Precision.double.round (i * unitsPerOne) 1 : ℕ) := by
  have hcount := counts_of_intCast hx
  rwa [← Nat.cast_mul, onMagnitude_natCast] at hcount

theorem exists_natCast_of_not_isBelowZero {i : ℤ} (hsign : (int i).isBelowZero = false) : ∃ j : ℕ, i = j := by
  have hunits : (0 : ℤ) < unitsPerOne := Int.natCast_pos.mpr unitsPerOne_pos
  simp only [isBelowZero, units?, Option.any_some, decide_eq_false_iff_not, not_lt] at hsign
  exact Int.eq_ofNat_of_zero_le (nonneg_of_mul_nonneg_left hsign hunits)

/-- A length that is not below zero is a whole number or a double that counts a number of units. -/
theorem cases_of_not_isBelowZero (hsign : n.isBelowZero = false) (hx : n.toBinary64? = some x)
    (hfin : x.isFinite = true) : (∃ i : ℕ, n = int i) ∨ (n = real x ∧ ∃ m : ℕ, Counts x m) := by
  cases n with
  | int i =>
    obtain ⟨j, rfl⟩ := exists_natCast_of_not_isBelowZero hsign
    exact .inl ⟨j, rfl⟩
  | real z =>
    obtain rfl : z = x := Option.some.inj hx
    obtain ⟨u, hu⟩ := exists_counts hfin
    simp only [isBelowZero, units?, hu.units, Option.any_some, decide_eq_false_iff_not, not_lt] at hsign
    exact .inr ⟨rfl, u.toNat, by rwa [Int.toNat_of_nonneg hsign]⟩

theorem exists_counts (hsign : n.isBelowZero = false) (hx : n.toBinary64? = some x) (hfin : x.isFinite = true) :
    ∃ m : ℕ, Counts x m := by
  rcases cases_of_not_isBelowZero hsign hx hfin with ⟨i, rfl⟩ | ⟨-, m, hm⟩
  · exact ⟨_, counts_of_natCast hx⟩
  · exact ⟨m, hm⟩

/-- Twice a length counts twice as many units. -/
theorem counts_double (hsign : n.isBelowZero = false) (hx : n.toBinary64? = some x) (hm : Counts x m)
    (hy : n.double.toBinary64? = some y) (hfin : y.isFinite = true) : Counts y (2 * m : ℕ) := by
  rcases cases_of_not_isBelowZero hsign hx hm.isFinite with ⟨i, rfl⟩ | ⟨rfl, -⟩
  · have hdouble : (int i).double = int (2 * i : ℕ) := by simp [double]
    rw [hdouble] at hy
    have hround : m = Precision.double.round (i * unitsPerOne) 1 := by
      exact_mod_cast hm.unique (counts_of_natCast hx)
    have hcount := counts_of_natCast hy
    rwa [Nat.mul_assoc, Precision.double.round_two_mul rfl, ← hround] at hcount
  · obtain rfl : 2 * x = y := Option.some.inj hy
    exact hm.two_mul hfin

theorem isFinite_of_rational {q : ℚ} (hx : n.toBinary64? = some x) (hq : n.rational? = some q) : x.isFinite = true := by
  cases n with
  | int i =>
    obtain ⟨hfin, rfl⟩ := toBinary64?_int_eq_some_iff.mp hx
    exact hfin
  | real z =>
    obtain rfl : z = x := Option.some.inj hx
    exact exists_rational_iff.mp ⟨q, hq⟩

/-- A length and twice another one, added as doubles, count their units, rounded. -/
theorem counts_add_double {m n : Number} {x y z : Binary64} (hm : m.isBelowZero = false) (hn : n.isBelowZero = false)
    (hx : m.toBinary64? = some x) (hy : n.toBinary64? = some y) (hz : n.double.toBinary64? = some z)
    (hfin : (x + z).isFinite = true) :
    ∃ s p : ℕ, Counts x s ∧ Counts y p ∧ Counts (x + z) (Precision.double.round (s + 2 * p) 1 : ℕ) := by
  obtain ⟨hxfin, hzfin⟩ := isFinite_of_add hfin
  obtain ⟨r, hr⟩ := exists_rational_of_toBinary64 hz hzfin
  obtain ⟨q, hq⟩ := exists_rational_of_double hr
  obtain ⟨s, hs⟩ := exists_counts hm hx hxfin
  obtain ⟨p, hp⟩ := exists_counts hn hy (isFinite_of_rational hy hq)
  have hlength := hs.add (counts_double hn hy hp hz hzfin) hfin
  rw [sumUnits, ← Nat.cast_add, onMagnitude_natCast] at hlength
  exact ⟨s, p, hs, hp, hlength⟩

theorem isBelowZero_eq_false_of_isPositive (h : n.isPositive = true) : n.isBelowZero = false := by
  unfold isPositive at h
  unfold isBelowZero
  cases hu : n.units? with
  | none => rfl
  | some u =>
    rw [hu] at h
    simp only [Option.any_some, decide_eq_true_eq, decide_eq_false_iff_not, not_lt] at h ⊢
    exact h.le

/-- The ceiling of a length is no smaller than the length. -/
theorem le_ceiling {i : ℤ} (hm : Counts x m) (hceiling : (real x).ceiling = .ok i) : m ≤ i * unitsPerOne := by
  obtain ⟨s, k, hk, rfl, hsigned⟩ := hm
  have hi : -((if s then (k : ℤ) else -k) / unitsPerOne) = i := Except.ok.inj hceiling
  have hneg : (if s then (k : ℤ) else -k) = -m := by
    rw [hsigned]
    cases s <;> simp
  have hle := Int.ediv_mul_le (-m : ℤ) (Int.natCast_ne_zero.mpr unitsPerOne_pos.ne')
  rw [← hi, hneg]
  linarith

end Number

end PlaneSketch
