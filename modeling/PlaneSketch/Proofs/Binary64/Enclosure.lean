import Mathlib.Algebra.Order.Round
import Mathlib.Tactic.NormNum
import PlaneSketch.Proofs.Binary64.Units
import PlaneSketch.Proofs.Number.Lengths

/-!
# Bounds of rounded results

An operation on finite doubles rounds its exact result. As long as that result is no greater than sixteen in magnitude,
the rounded one is finite, differs from it by at most `2 ^ -49`, and lies on the same side of every double.

* `le_iff_of_rational`, `lt_iff_of_rational`, `beq_iff_of_rational`: comparisons compare exact values.
* `isRounding_add`, `isRounding_sub`, `isRounding_mul`, `isRounding_div`: the operations round their exact results.
* `IsRounding.exists_near`: results of moderate size are finite, with a small error.
* `Rounded.le`, `Rounded.ge`: bounds that are doubles.
-/

namespace PlaneSketch.Binary64

variable {x y : Binary64} {p q v w : ℚ}

/-! ### Comparing values -/

theorem exists_counts_of_rational (hx : x.rational? = some p) : ∃ u, Counts x u ∧ p = u / unitsPerOne := by
  obtain ⟨u, hu⟩ := exists_counts (exists_rational_iff.mp ⟨p, hx⟩)
  exact ⟨u, hu, Option.some.inj (hx.symm.trans hu.rational)⟩

theorem compareBy_iff {r : ℤ → ℤ → Bool} {R : ℚ → ℚ → Prop} (hx : x.rational? = some p) (hy : y.rational? = some q)
    (hr : ∀ u v : ℤ, r u v = true ↔ R (u / unitsPerOne) (v / unitsPerOne)) : compareBy r x y = true ↔ R p q := by
  obtain ⟨u, hu, rfl⟩ := exists_counts_of_rational hx
  obtain ⟨v, hv, rfl⟩ := exists_counts_of_rational hy
  rw [compareBy, hu.units, hv.units]
  exact hr u v

theorem le_iff_of_rational (hx : x.rational? = some p) (hy : y.rational? = some q) : x ≤ y ↔ p ≤ q :=
  compareBy_iff (r := fun a b => a ≤ b) hx hy fun u v => by
    rw [div_le_div_iff_of_pos_right cast_unitsPerOne_pos, Int.cast_le, decide_eq_true_iff]

theorem lt_iff_of_rational (hx : x.rational? = some p) (hy : y.rational? = some q) : x < y ↔ p < q :=
  compareBy_iff (r := fun a b => a < b) hx hy fun u v => by
    rw [div_lt_div_iff_of_pos_right cast_unitsPerOne_pos, Int.cast_lt, decide_eq_true_iff]

theorem beq_iff_of_rational (hx : x.rational? = some p) (hy : y.rational? = some q) : (x == y) = true ↔ p = q :=
  compareBy_iff (r := fun a b => a == b) hx hy fun u v => by
    rw [div_left_inj' cast_unitsPerOne_pos.ne', Int.cast_inj, beq_iff_eq]

/-- What lies between two doubles with values has a value between theirs. -/
theorem exists_rational_of_between {z : Binary64} (hx : x.rational? = some p) (hz : z.rational? = some q)
    (hxy : x ≤ y) (hyz : y ≤ z) : ∃ v, y.rational? = some v ∧ p ≤ v ∧ v ≤ q := by
  obtain ⟨u, hu, rfl⟩ := exists_counts_of_rational hx
  obtain ⟨w, hw, rfl⟩ := exists_counts_of_rational hz
  obtain ⟨v, hv, -, -⟩ := hu.exists_of_between hw hxy hyz
  exact ⟨_, hv.rational, (le_iff_of_rational hx hv.rational).mp hxy, (le_iff_of_rational hv.rational hz).mp hyz⟩

/-! ### Exact values -/

/-- A value that some double has. -/
def IsValue (w : ℚ) : Prop := ∃ y : Binary64, y.rational? = some w

theorem rational_neg (hx : x.rational? = some p) : (-x).rational? = some (-p) := by
  obtain ⟨u, hu, rfl⟩ := exists_counts_of_rational hx
  rw [hu.neg.rational, Int.cast_neg, neg_div]

theorem IsValue.neg (h : IsValue w) : IsValue (-w) := by
  obtain ⟨y, hy⟩ := h
  exact ⟨-y, rational_neg hy⟩

/-- Whole numbers of steps of `2 ^ -49` are values, as long as they have no more than 53 binary digits. -/
theorem isValue_natCast_div {k : ℕ} (hk : k ≤ 2 ^ 53) : IsValue (k / 2 ^ 49) := by
  obtain ⟨e, hunits, hlimit⟩ : ∃ e, unitsPerOne = Nat.pow 2 e * 2 ^ 49 ∧
      2 ^ 53 * Nat.pow 2 e < Precision.double.limit :=
    ⟨1025, by decide +kernel, by decide +kernel⟩
  have hfits : FitsDouble (k * Nat.pow 2 e) :=
    ⟨Precision.double.aligned_mul_two_pow (Nat.zero_le e) hk, (Nat.mul_le_mul_right _ hk).trans_lt hlimit⟩
  refine ⟨finite false _ hfits, ?_⟩
  rw [(counts_finite false hfits).rational, hunits, if_neg Bool.false_ne_true]
  rw [Nat.pow_eq, Option.some.injEq]
  push_cast
  field_simp
  norm_num

theorem isValue_intCast_div {k : ℤ} (hk : |k| ≤ 2 ^ 53) : IsValue (k / 2 ^ 49) := by
  obtain ⟨n, rfl | rfl⟩ := k.eq_nat_or_neg
  · exact isValue_natCast_div (by simpa using hk)
  · have hn : n ≤ 2 ^ 53 := by
      rw [abs_neg] at hk
      simpa using hk
    have hneg := (isValue_natCast_div hn).neg
    rwa [← neg_div, ← Int.cast_natCast, ← Int.cast_neg] at hneg

/-- Twice a value of moderate size is a value. -/
theorem IsValue.two_mul (h : IsValue w) (hw : |w| ≤ 8) : IsValue (2 * w) := by
  obtain ⟨y, hy⟩ := h
  obtain ⟨u, hu, rfl⟩ := exists_counts_of_rational hy
  have hunits := cast_unitsPerOne_pos
  have hbelow : 16 * unitsPerOne < Precision.double.limit := by decide +kernel
  obtain ⟨n, hn, hsign⟩ : ∃ n : ℕ, u.natAbs = n ∧ (u = n ∨ u = -(n : ℤ)) := ⟨_, rfl, u.natAbs_eq⟩
  have hfits : FitsDouble n := hn ▸ hu.fits
  have hmoderate : n ≤ 8 * unitsPerOne := by
    rw [abs_div, abs_of_pos hunits, div_le_iff₀ hunits, ← Int.cast_abs, Int.abs_eq_natAbs, hn] at hw
    exact_mod_cast hw
  have htwice : FitsDouble (2 * n) := ⟨Precision.double.aligned_two_mul hfits.aligned, by omega⟩
  have hvalue : IsValue (2 * (n / unitsPerOne)) := by
    refine ⟨finite false _ htwice, ?_⟩
    rw [(counts_finite false htwice).rational, if_neg Bool.false_ne_true, Int.cast_natCast, Nat.cast_mul, mul_div_assoc,
      Nat.cast_ofNat]
  rcases hsign with rfl | rfl
  · rwa [Int.cast_natCast]
  · rw [Int.cast_neg, neg_div, mul_neg, Int.cast_natCast]
    exact hvalue.neg

theorem rational_ofNat {n : ℕ} (hn : n < 2 ^ 31) : (ofNat n).rational? = some (n : ℚ) := by
  have hfits := fitsDouble_mul_unitsPerOne hn
  rw [ofNat, ofRatio_fits false hfits, (counts_finite false hfits).rational, if_neg Bool.false_ne_true,
    Int.cast_natCast, Nat.cast_mul, mul_div_cancel_right₀ _ cast_unitsPerOne_pos.ne']

theorem rational_zero : (0 : Binary64).rational? = some 0 := by
  have hzero := rational_ofNat (n := 0) (by decide)
  rwa [Nat.cast_zero] at hzero

theorem rational_one : (1 : Binary64).rational? = some 1 := by
  have hone := rational_ofNat (n := 1) (by decide)
  rwa [Nat.cast_one] at hone

theorem rational_literal (n : ℕ) [n.AtLeastTwo] (hn : OfNat.ofNat n < 2 ^ 31) :
    (OfNat.ofNat n : Binary64).rational? = some (OfNat.ofNat n) :=
  rational_ofNat hn

theorem isValue_zero : IsValue 0 := ⟨0, rational_zero⟩

theorem isValue_one : IsValue 1 := ⟨1, rational_one⟩

theorem isValue_two : IsValue 2 := ⟨2, rational_literal 2 (by decide)⟩

/-! ### Rounding -/

/-- The double comes from rounding `q`, which may leave the range. -/
def IsRounding (x : Binary64) (q : ℚ) : Prop :=
  ∃ s num den, 0 < den ∧ x = ofRatio s num den ∧ ratioValue s num den = q

/-- The double has the value `v`, and no other value is nearer to `q`. -/
structure Rounded (x : Binary64) (q v : ℚ) : Prop where
  value : x.rational? = some v
  nearest : ∀ w, IsValue w → |v - q| ≤ |w - q|

theorem IsRounding.rounded (h : IsRounding x q) (hx : x.rational? = some v) : Rounded x q v := by
  obtain ⟨s, num, den, hden, rfl, rfl⟩ := h
  have hnear := isNearest_ofRatio hden (exists_rational_iff.mp ⟨v, hx⟩)
  exact ⟨hx, fun w ⟨y, hy⟩ => hnear.nearest y v w hx hy⟩

/-- A result of moderate size is finite. -/
theorem IsRounding.exists_rounded (h : IsRounding x q) (hq : |q| ≤ 16) : ∃ v, Rounded x q v := by
  obtain ⟨v, hv⟩ : ∃ v, x.rational? = some v := by
    obtain ⟨s, num, den, hden, rfl, rfl⟩ := h
    have hbelow : 16 * unitsPerOne < overflowUnits := by decide +kernel
    have hstep : (0 : ℚ) < den * unitsPerOne := mul_pos (Nat.cast_pos.mpr hden) cast_unitsPerOne_pos
    have hmagnitude : |((if s then -(num : ℤ) else num : ℤ) : ℚ)| = num := by cases s <;> simp
    rw [ratioValue, abs_div, abs_of_pos hstep, div_le_iff₀ hstep, hmagnitude] at hq
    rw [exists_rational_iff, isFinite_ofRatio_iff hden]
    calc num ≤ 16 * (den * unitsPerOne) := by exact_mod_cast hq
      _ = 16 * unitsPerOne * den := by ring
      _ < overflowUnits * den := Nat.mul_lt_mul_of_pos_right hbelow hden
  exact ⟨v, h.rounded hv⟩

namespace Rounded

variable (h : Rounded x q v)
include h

/-- A value above the exact result stays above the rounded one. -/
theorem le (hw : IsValue w) (hqw : q ≤ w) : v ≤ w := by
  by_contra hlt
  have hnear := h.nearest w hw
  rw [abs_of_nonneg (by linarith), abs_of_nonneg (by linarith)] at hnear
  linarith

/-- A value below the exact result stays below the rounded one. -/
theorem ge (hw : IsValue w) (hwq : w ≤ q) : w ≤ v := by
  by_contra hlt
  have hnear := h.nearest w hw
  rw [abs_of_nonpos (by linarith), abs_of_nonpos (by linarith)] at hnear
  linarith

/-- An exact result that is a value is kept. -/
theorem eq (hq : IsValue q) : v = q := le_antisymm (h.le hq le_rfl) (h.ge hq le_rfl)

/-- The error of a result of moderate size. -/
theorem abs_sub_le (hq : |q| ≤ 16) : |v - q| ≤ 1 / 2 ^ 49 := by
  have hstep : (0 : ℚ) < 2 ^ 49 := by positivity
  have hfloor : |⌊q * 2 ^ 49⌋| ≤ 2 ^ 53 := by
    obtain ⟨hlow, hhigh⟩ := abs_le.mp hq
    rw [abs_le]
    constructor
    · rw [Int.le_floor]
      push_cast
      linarith
    · rw [Int.floor_le_iff]
      push_cast
      linarith
  refine (h.nearest _ (isValue_intCast_div hfloor)).trans ?_
  have hbelow := Int.floor_le (q * 2 ^ 49)
  have habove := Int.lt_floor_add_one (q * 2 ^ 49)
  rw [abs_sub_comm, abs_of_nonneg (by rw [sub_nonneg, div_le_iff₀ hstep]; exact hbelow), sub_le_iff_le_add, ← add_div,
    le_div_iff₀ hstep]
  linarith

end Rounded

/-- A result of moderate size, with its error. -/
theorem IsRounding.exists_near (h : IsRounding x q) (hlow : -16 ≤ q) (hhigh : q ≤ 16) :
    ∃ v, Rounded x q v ∧ q - 1 / 2 ^ 49 ≤ v ∧ v ≤ q + 1 / 2 ^ 49 := by
  have hmoderate : |q| ≤ 16 := abs_le.mpr ⟨hlow, hhigh⟩
  obtain ⟨v, hv⟩ := h.exists_rounded hmoderate
  obtain ⟨hbelow, habove⟩ := abs_le.mp (hv.abs_sub_le hmoderate)
  exact ⟨v, hv, by linarith, by linarith⟩

/-! ### Operations -/

theorem ratioValue_signed {s : Bool} {i : ℤ} (hs : i = if s then -(i.natAbs : ℤ) else i.natAbs) (den : ℕ) :
    ratioValue s i.natAbs den = i / (den * unitsPerOne) := by
  rw [ratioValue, ← hs]

theorem isRounding_add (hx : x.rational? = some p) (hy : y.rational? = some q) : IsRounding (x + y) (p + q) := by
  obtain ⟨u, hu, rfl⟩ := exists_counts_of_rational hx
  obtain ⟨v, hv, rfl⟩ := exists_counts_of_rational hy
  obtain ⟨s, hsum, hsign⟩ := hu.exists_add_eq hv
  refine ⟨s, _, 1, Nat.one_pos, hsum, ?_⟩
  rw [ratioValue_signed hsign]
  push_cast
  ring

/-- Only a sum that is zero is rounded to zero. -/
theorem add_eq_zero_of_rational (hx : x.rational? = some p) (hy : y.rational? = some q)
    (hsum : (x + y).rational? = some 0) : p + q = 0 := by
  obtain ⟨u, hu, rfl⟩ := exists_counts_of_rational hx
  obtain ⟨v, hv, rfl⟩ := exists_counts_of_rational hy
  have hcount := hu.add hv (exists_rational_iff.mp ⟨0, hsum⟩)
  rw [hcount.rational, Option.some.injEq, div_eq_zero_iff, or_iff_left cast_unitsPerOne_pos.ne',
    Int.cast_eq_zero] at hsum
  have hzero : u + v = 0 := by
    by_contra hne
    refine round_ne_zero (Int.natAbs_ne_zero.mpr hne) ?_
    rw [← natAbs_onMagnitude (Precision.double.round · 1)]
    exact Int.natAbs_eq_zero.mpr hsum
  rw [← add_div, ← Int.cast_add, hzero, Int.cast_zero, zero_div]

theorem isRounding_sub (hx : x.rational? = some p) (hy : y.rational? = some q) : IsRounding (x - y) (p - q) := by
  rw [sub_eq_add_neg]
  exact isRounding_add hx (rational_neg hy)

theorem isRounding_mul (hx : x.rational? = some p) (hy : y.rational? = some q) : IsRounding (x * y) (p * q) := by
  obtain ⟨u, hu, rfl⟩ := exists_counts_of_rational hx
  obtain ⟨v, hv, rfl⟩ := exists_counts_of_rational hy
  obtain ⟨s, hproduct, hsign⟩ := hu.exists_mul_eq hv
  refine ⟨s, _, _, unitsPerOne_pos, hproduct, ?_⟩
  rw [ratioValue_signed hsign, Int.cast_mul, div_mul_div_comm]

theorem isRounding_div (hx : x.rational? = some p) (hy : y.rational? = some q) (hq : q ≠ 0) :
    IsRounding (x / y) (p / q) := by
  obtain ⟨u, hu, rfl⟩ := exists_counts_of_rational hx
  obtain ⟨v, hv, rfl⟩ := exists_counts_of_rational hy
  obtain ⟨s, m, hm, rfl, rfl⟩ := hu
  obtain ⟨t, n, hn, rfl, rfl⟩ := hv
  have hunits := cast_unitsPerOne_pos.ne'
  have hne : n ≠ 0 := by
    rintro rfl
    simp at hq
  refine ⟨s ^^ t, m * unitsPerOne, n, Nat.pos_of_ne_zero hne, if_neg hne, ?_⟩
  rw [div_div_div_cancel_right₀ hunits, ratioValue]
  cases s <;> cases t <;> simp [mul_div_mul_right, hunits, neg_div, div_neg]

/-- A fraction is rounded. -/
theorem isRounding_ofFraction (num : ℕ) {den : ℕ} (hden : 0 < den) : IsRounding (ofFraction num den) (num / den) := by
  refine ⟨false, _, den, hden, rfl, ?_⟩
  rw [ratioValue, if_neg Bool.false_ne_true, Int.cast_natCast, Nat.cast_mul,
    mul_div_mul_right _ _ cast_unitsPerOne_pos.ne']

end PlaneSketch.Binary64
