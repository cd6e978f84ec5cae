import Mathlib.Algebra.Order.Field.Basic
import Mathlib.Data.Rat.Cast.Order
import Mathlib.Tactic.FieldSimp
import PlaneSketch.Proofs.Rounding.Nearest

/-!
# Floating numbers among the rational numbers

`floats digits least bound` are the rational numbers that are a whole number of steps, fewer than `2 ^ digits` of them to
either side, where a step is a power of two that is not below `2 ^ least`, and that are less than `2 ^ bound`. Such a
number has an even significand if one digit less and steps twice as large will do. `IsNearestIn` is rounding to the
nearest of two such sets, and it determines its result.

* `exists_float_between`: between two numbers with even significands there is another one.
* `IsNearestIn.unique`: no number is rounded to two different ones.
* `Precision.div_mem_floats_iff`: the points of a grid are the floating numbers of its precision.
* `Precision.isNearestIn_round`: rounding to the grid is rounding to the nearest of them.
-/

namespace PlaneSketch

/-- The floating numbers with `digits` binary digits and steps from `2 ^ least` on that are less than `2 ^ bound`. -/
def floats (digits : ℕ) (least : ℤ) (bound : ℕ) : Set ℚ :=
  {v | |v| < 2 ^ bound ∧ ∃ m k : ℤ, v = m * 2 ^ k ∧ |m| < 2 ^ digits ∧ least ≤ k}

/-- No number in `S` is nearer to `q` than `v`, and if another one is just as near, then `v` is in `E`. -/
structure IsNearestIn (S E : Set ℚ) (v q : ℚ) : Prop where
  mem : v ∈ S
  nearest : ∀ w ∈ S, |v - q| ≤ |w - q|
  even : ∀ w ∈ S, w ≠ v → |v - q| = |w - q| → v ∈ E

variable {digits bound : ℕ} {least : ℤ} {v w : ℚ}

theorem neg_mem_floats (h : v ∈ floats digits least bound) : -v ∈ floats digits least bound := by
  obtain ⟨hbound, m, k, rfl, hm, hk⟩ := h
  refine ⟨by rwa [abs_neg], -m, k, ?_, by rwa [abs_neg], hk⟩
  push_cast
  ring

theorem IsNearestIn.neg {S E : Set ℚ} (hS : ∀ v ∈ S, -v ∈ S) (hE : ∀ v ∈ E, -v ∈ E) {q : ℚ} (h : IsNearestIn S E v q) :
    IsNearestIn S E (-v) (-q) := by
  -- distances are the same seen from the other side of zero
  have hdistance : ∀ w : ℚ, |w - -q| = |-w - q| := fun w => by
    rw [← abs_neg]
    congr 1
    ring
  have hself : |-v - -q| = |v - q| := by rw [hdistance, neg_neg]
  refine ⟨hS v h.mem, fun w hw => ?_, fun w hw hne htie => ?_⟩
  · rw [hself, hdistance]
    exact h.nearest _ (hS w hw)
  · rw [hself, hdistance] at htie
    exact hE v (h.even _ (hS w hw) (fun hwv => hne (by rw [← hwv, neg_neg])) htie)

/-! ### Between two numbers -/

/-- Half a step of the number with the finer steps leads from it towards the other one. -/
theorem exists_float_above {m n k l : ℤ} (hm : |m| < 2 ^ digits) (hk : least + 1 ≤ k) (hkl : k ≤ l)
    (hv : |(m * 2 ^ k : ℚ)| < 2 ^ bound) (hw : |(n * 2 ^ l : ℚ)| < 2 ^ bound) (hlt : (m * 2 ^ k : ℚ) < n * 2 ^ l) :
    ∃ z ∈ floats (digits + 1) least bound, (m * 2 ^ k : ℚ) < z ∧ z < n * 2 ^ l := by
  obtain ⟨d, rfl⟩ := Int.exists_add_of_le hkl
  obtain ⟨j, rfl⟩ : ∃ j, k = j + 1 := ⟨k - 1, by omega⟩
  have hstep : (0 : ℚ) < 2 ^ j := zpow_pos (by decide) j
  -- the other number in steps of the finer one
  have hother : (n * 2 ^ (j + 1 + d : ℤ) : ℚ) = (n * 2 ^ d : ℤ) * 2 ^ (j + 1) := by
    rw [zpow_add₀ (by decide), zpow_natCast]
    push_cast
    ring
  rw [hother] at hw hlt ⊢
  have hdouble : (2 : ℚ) ^ (j + 1) = 2 * 2 ^ j := by rw [zpow_add_one₀ (by decide), mul_comm]
  -- both numbers are multiples of the same step, so a whole step lies between them
  have hsteps : m + 1 ≤ n * 2 ^ d := by
    have : (m : ℚ) < (n * 2 ^ d : ℤ) := lt_of_mul_lt_mul_right hlt (zpow_pos (by decide) _).le
    exact_mod_cast this
  have hcast : (m + 1 : ℚ) ≤ (n * 2 ^ d : ℤ) := by exact_mod_cast hsteps
  have hlow : (m * 2 ^ (j + 1) : ℚ) < (2 * m + 1 : ℤ) * 2 ^ j := by
    rw [hdouble]
    push_cast
    linarith
  have hhigh : ((2 * m + 1 : ℤ) * 2 ^ j : ℚ) < (n * 2 ^ d : ℤ) * 2 ^ (j + 1) := by
    calc ((2 * m + 1 : ℤ) * 2 ^ j : ℚ) < (m + 1) * (2 * 2 ^ j) := by
          push_cast
          linarith
      _ ≤ (n * 2 ^ d : ℤ) * (2 * 2 ^ j) := mul_le_mul_of_nonneg_right hcast (by positivity)
      _ = (n * 2 ^ d : ℤ) * 2 ^ (j + 1) := by rw [hdouble]
  refine ⟨_, ⟨?_, 2 * m + 1, j, rfl, ?_, by omega⟩, hlow, hhigh⟩
  · rw [abs_lt] at hv hw ⊢
    exact ⟨hv.1.trans hlow, hhigh.trans hw.2⟩
  · rw [abs_lt] at hm ⊢
    rw [pow_succ]
    omega

/-- **Between two numbers with even significands** there is another floating number. -/
theorem exists_float_between (hv : v ∈ floats digits (least + 1) bound) (hw : w ∈ floats digits (least + 1) bound)
    (hlt : v < w) : ∃ z ∈ floats (digits + 1) least bound, v < z ∧ z < w := by
  obtain ⟨hvbound, m, k, rfl, hm, hk⟩ := hv
  obtain ⟨hwbound, n, l, rfl, hn, hl⟩ := hw
  rcases Int.le_total k l with hkl | hlk
  · exact exists_float_above hm hk hkl hvbound hwbound hlt
  · -- the other way round, seen from the other side of zero
    have hneg : ∀ (i e : ℤ), ((-i : ℤ) * 2 ^ e : ℚ) = -(i * 2 ^ e) := fun i e => by push_cast; ring
    obtain ⟨z, hz, hlow, hhigh⟩ := exists_float_above (m := -n) (n := -m) (by rwa [abs_neg]) hl hlk
      (by rwa [hneg, abs_neg]) (by rwa [hneg, abs_neg]) (by rwa [hneg, hneg, neg_lt_neg_iff])
    rw [hneg] at hlow hhigh
    exact ⟨-z, neg_mem_floats hz, lt_neg_of_lt_neg hhigh, neg_lt_of_neg_lt hlow⟩

/-- **Rounding to the nearest** gives one number only: two of them would have even significands, and what lies between
them would be nearer. -/
theorem IsNearestIn.unique {S E : Set ℚ} (hbetween : ∀ v ∈ E, ∀ w ∈ E, v < w → ∃ z ∈ S, v < z ∧ z < w) {q : ℚ}
    (hv : IsNearestIn S E v q) (hw : IsNearestIn S E w q) : v = w := by
  wlog hle : v ≤ w generalizing v w
  · exact (this hw hv (le_of_not_ge hle)).symm
  by_contra hne
  have htie : |v - q| = |w - q| := (hv.nearest w hw.mem).antisymm (hw.nearest v hv.mem)
  have hlt : v < w := lt_of_le_of_ne hle hne
  obtain ⟨z, hz, hvz, hzw⟩ := hbetween v (hv.even w hw.mem (Ne.symm hne) htie) w (hw.even v hv.mem hne htie.symm) hlt
  have hnear := hv.nearest z hz
  -- the two are on either side of the number that is rounded
  have hmiddle : w - q = -(v - q) := by
    rcases abs_eq_abs.mp htie with h | h
    · exact absurd (by linarith) hne
    · linarith
  have hsign : v - q < 0 := by linarith
  rw [abs_of_neg hsign, le_abs] at hnear
  rcases hnear with h | h <;> linarith

theorem IsNearestIn.unique_float {q : ℚ}
    (hv : IsNearestIn (floats (digits + 1) least bound) (floats digits (least + 1) bound) v q)
    (hw : IsNearestIn (floats (digits + 1) least bound) (floats digits (least + 1) bound) w q) : v = w :=
  hv.unique (fun _ hv _ hw => exists_float_between hv hw) hw

/-! ### Points of a grid -/

/-- What floating numbers are in units of `2 ^ -shift`. -/
theorem div_two_pow_mem_floats_iff {finest shift : ℕ} {u : ℤ} :
    (u / 2 ^ shift : ℚ) ∈ floats digits (finest - shift) bound ↔
      u.natAbs < 2 ^ (bound + shift) ∧ ∃ j k, u.natAbs = j * 2 ^ k ∧ j < 2 ^ digits ∧ finest ≤ k := by
  have hshift : (0 : ℚ) < 2 ^ shift := by positivity
  have hrange : |(u / 2 ^ shift : ℚ)| < 2 ^ bound ↔ u.natAbs < 2 ^ (bound + shift) := by
    rw [abs_div, abs_of_pos hshift, div_lt_iff₀ hshift, ← pow_add, ← Int.cast_abs, Int.abs_eq_natAbs]
    norm_cast
  refine and_congr hrange ?_
  constructor
  · rintro ⟨m, k, hvalue, hm, hk⟩
    obtain ⟨e, he⟩ : ∃ e : ℕ, k = e - shift := ⟨(k + shift).toNat, by omega⟩
    have hu : u = m * 2 ^ e := by
      rw [he, zpow_sub₀ (by decide), zpow_natCast, zpow_natCast, ← mul_div_assoc, div_left_inj' hshift.ne'] at hvalue
      exact_mod_cast hvalue
    refine ⟨m.natAbs, e, ?_, ?_, by omega⟩
    · rw [hu, Int.natAbs_mul, Int.natAbs_pow]
      rfl
    · rw [Int.abs_eq_natAbs] at hm
      exact_mod_cast hm
  · rintro ⟨j, e, hu, hj, he⟩
    -- the sign goes to the significand, which it does not make larger
    refine ⟨u.sign * j, e - shift, ?_, ?_, by omega⟩
    · rw [zpow_sub₀ (by decide), zpow_natCast, zpow_natCast, ← mul_div_assoc, div_left_inj' hshift.ne']
      have hsigned : u = u.sign * j * 2 ^ e := by
        conv_lhs => rw [← Int.sign_mul_natAbs u, hu]
        push_cast
        ring
      exact_mod_cast hsigned
    · have hsign : |u.sign| ≤ 1 := by
        rcases Int.sign_trichotomy u with h | h | h <;> simp [h]
      calc |u.sign * j| = |u.sign| * j := by rw [abs_mul, Nat.abs_cast]
        _ ≤ j := mul_le_of_le_one_left (Int.natCast_nonneg j) hsign
        _ < 2 ^ digits := by exact_mod_cast hj

/-- Floating numbers are whole numbers of the least step. -/
theorem exists_eq_div_two_pow {finest shift : ℕ} (hv : v ∈ floats digits (finest - shift) bound) :
    ∃ u : ℤ, v = u / 2 ^ shift := by
  obtain ⟨-, m, k, rfl, -, hk⟩ := hv
  obtain ⟨e, rfl⟩ : ∃ e : ℕ, k = e - shift := ⟨(k + shift).toNat, by omega⟩
  refine ⟨m * 2 ^ e, ?_⟩
  rw [zpow_sub₀ (by decide), zpow_natCast, zpow_natCast]
  push_cast
  ring

namespace Precision

variable (p : Precision) {n : ℕ}

theorem aligned_iff_exists : p.Aligned n ↔ ∃ j k, n = j * 2 ^ k ∧ j < 2 ^ p.digits ∧ p.finest ≤ k := by
  constructor
  · rintro ⟨j, hj⟩
    refine ⟨j, p.spacingLog n, hj.trans (Nat.mul_comm _ _), ?_, Nat.le_max_left _ _⟩
    have hlt := p.lt_two_pow_spacingLog n
    rw [Nat.pow_eq, Nat.pow_add] at hlt
    refine Nat.lt_of_mul_lt_mul_right (a := 2 ^ p.spacingLog n) ?_
    calc j * 2 ^ p.spacingLog n = n := (Nat.mul_comm _ _).trans hj.symm
      _ < 2 ^ p.digits * 2 ^ p.spacingLog n := hlt
  · rintro ⟨j, k, rfl, hj, hk⟩
    exact p.aligned_mul_two_pow hk hj.le

/-- The even multiples of their own spacing. -/
theorem exists_of_even {digits : ℕ} (hdigits : p.digits = digits + 1) (heven : 2 * p.spacing n ∣ n) :
    ∃ j k, n = j * 2 ^ k ∧ j < 2 ^ digits ∧ p.finest + 1 ≤ k := by
  obtain ⟨j, hj⟩ := heven
  have hfinest : p.finest ≤ p.spacingLog n := Nat.le_max_left _ _
  have hn : n = j * 2 ^ (p.spacingLog n + 1) := by
    calc n = 2 * 2 ^ p.spacingLog n * j := hj
      _ = j * 2 ^ (p.spacingLog n + 1) := by ring
  refine ⟨j, p.spacingLog n + 1, hn, ?_, by omega⟩
  have hlt := p.lt_two_pow_spacingLog n
  rw [Nat.pow_eq, hdigits, Nat.add_assoc, Nat.add_comm 1, Nat.pow_add] at hlt
  exact Nat.lt_of_mul_lt_mul_right (a := 2 ^ (p.spacingLog n + 1)) (hn ▸ hlt)

variable {bound shift : ℕ} (hbound : p.bound = bound + shift) {u : ℤ}

include hbound

theorem limit_eq : p.limit = 2 ^ (bound + shift) := by
  unfold limit
  rw [hbound]
  rfl

/-- The points of the grid are the floating numbers. -/
theorem div_mem_floats_iff : (u / 2 ^ shift : ℚ) ∈ floats p.digits (p.finest - shift) bound ↔
    u.natAbs < p.limit ∧ p.Aligned u.natAbs := by
  rw [div_two_pow_mem_floats_iff, p.limit_eq hbound, aligned_iff_exists]

theorem div_mem_floats_of_even {digits : ℕ} (hdigits : p.digits = digits + 1) (hlt : u.natAbs < p.limit)
    (heven : 2 * p.spacing u.natAbs ∣ u.natAbs) :
    (u / 2 ^ shift : ℚ) ∈ floats digits (p.finest - shift + 1) bound := by
  have hleast : (p.finest - shift + 1 : ℤ) = (p.finest + 1 : ℕ) - shift := by
    push_cast
    ring
  rw [hleast, div_two_pow_mem_floats_iff, ← p.limit_eq hbound]
  exact ⟨hlt, p.exists_of_even hdigits heven⟩

/-- **A rounded quotient** of units is the nearest floating number, if it is in range. -/
theorem isNearestIn_round {digits : ℕ} (hdigits : p.digits = digits + 1) (hpos : 1 ≤ digits) {num den : ℕ}
    (hden : 0 < den) (hlt : p.round num den < p.limit) :
    IsNearestIn (floats p.digits (p.finest - shift) bound) (floats digits (p.finest - shift + 1) bound)
      (p.round num den / 2 ^ shift) (num / (den * 2 ^ shift)) := by
  have hstep : (0 : ℚ) < den * 2 ^ shift := mul_pos (Nat.cast_pos.mpr hden) (by positivity)
  -- distances are compared in whole numbers, as the grid compares them
  have hdistance : ∀ u : ℤ,
      |(u / 2 ^ shift - num / (den * 2 ^ shift) : ℚ)| = (|u * den - num| : ℤ) / (den * 2 ^ shift) := by
    intro u
    have hdiff : (u / 2 ^ shift - num / (den * 2 ^ shift) : ℚ) = (u * den - num : ℤ) / (den * 2 ^ shift) := by
      push_cast
      field_simp
    rw [hdiff, abs_div, abs_of_pos hstep, ← Int.cast_abs]
  have hself := hdistance (p.round num den)
  rw [Int.cast_natCast] at hself
  refine ⟨?_, ?_, ?_⟩
  · have hmem := (p.div_mem_floats_iff hbound (u := p.round num den)).mpr ⟨hlt, p.round_aligned num den⟩
    rwa [Int.cast_natCast] at hmem
  · intro w hw
    obtain ⟨u, rfl⟩ := exists_eq_div_two_pow hw
    rw [hself, hdistance, div_le_div_iff_of_pos_right hstep]
    exact_mod_cast p.abs_round_sub_le hden num ((p.div_mem_floats_iff hbound).mp hw).2
  · intro w hw hne htie
    obtain ⟨u, rfl⟩ := exists_eq_div_two_pow hw
    rw [hself, hdistance, div_left_inj' hstep.ne'] at htie
    have hu : u ≠ p.round num den := by
      rintro rfl
      exact hne (by rw [Int.cast_natCast])
    have heven := p.two_mul_spacing_dvd_round (by omega) hden ((p.div_mem_floats_iff hbound).mp hw).2 hu
      (by exact_mod_cast htie)
    have hmem := p.div_mem_floats_of_even hbound hdigits (u := p.round num den) hlt heven
    rwa [Int.cast_natCast] at hmem

end Precision

end PlaneSketch
