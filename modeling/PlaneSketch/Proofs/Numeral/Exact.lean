import PlaneSketch.Proofs.Decimal.Exact
import PlaneSketch.Proofs.Numeral.Grammar

/-!
# The values of numerals

A numeral denotes a rational number: its digits with the point where it stands, times the power of ten that its
exponent names. It is a literal of the double nearest to this number if that is below `2 ^ 1024 - 2 ^ 970` on either side
of zero, which is where rounding stays in range.

* `magnitude_eq`: the digits as a whole number, with the exponent moved past the fraction.
* `isFinite_value_iff`, `isNearest_value`: the double that a numeral is read as.
* `finite?_eq_some_iff`: the accepted texts of finite value are the literals (`Numeral.Literal`).
-/

namespace PlaneSketch

namespace Text

/-! ### The value of a row of digits -/

/-- Digits behind a number move it up by as many places. -/
theorem foldl_digits (n : Nat) (ds : List Nat) :
    ds.foldl (fun n d => 10 * n + d) n = n * 10 ^ ds.length + digitsValue ds := by
  induction ds generalizing n with
  | nil => simp [digitsValue]
  | cons d ds ih =>
    have hfirst : digitsValue (d :: ds) = d * 10 ^ ds.length + digitsValue ds := by
      simpa [digitsValue] using ih d
    rw [List.foldl_cons, ih, hfirst, List.length_cons, Nat.pow_succ', Nat.add_mul, Nat.mul_comm 10 n,
      Nat.mul_assoc, Nat.add_assoc]

theorem digitsValue_append (ds es : List Nat) :
    digitsValue (ds ++ es) = digitsValue ds * 10 ^ es.length + digitsValue es := by
  rw [digitsValue, List.foldl_append]
  exact foldl_digits _ es

end Text

namespace Numeral

open Text Binary64

/-! ### Exact values -/

/-- The exact value without its sign: the digits around the point, times a power of ten. -/
def magnitude (n : Numeral) : ℚ :=
  (digitsValue n.whole + digitsValue n.fraction / 10 ^ n.fraction.length) * 10 ^ n.exponent

/-- The exact value. -/
def rational (n : Numeral) : ℚ := if n.negative then -n.magnitude else n.magnitude

theorem magnitude_eq (n : Numeral) : n.magnitude = n.toDecimal.rational := by
  have hten : (10 : ℚ) ^ n.fraction.length ≠ 0 := pow_ne_zero _ (by decide)
  rw [magnitude, toDecimal, Decimal.rational, digitsValue_append, zpow_sub₀ (by decide), zpow_natCast]
  push_cast
  field_simp

theorem abs_rational (n : Numeral) : |n.rational| = n.toDecimal.rational := by
  have hpos : 0 ≤ n.toDecimal.rational := n.toDecimal.rational_nonneg
  rw [rational, magnitude_eq]
  split_ifs
  · rw [abs_neg, abs_of_nonneg hpos]
  · rw [abs_of_nonneg hpos]

/-- Rounding stays in range below the point half-way between the greatest double and `2 ^ 1024`. -/
theorem isFinite_value_iff (n : Numeral) : n.value.isFinite = true ↔ |n.rational| < 2 ^ 1024 - 2 ^ 970 := by
  rw [abs_rational]
  exact n.toDecimal.isFinite_toBinary64_iff n.negative

theorem isNearest_value {n : Numeral} (hfin : n.value.isFinite = true) : n.value.IsNearest n.rational := by
  rw [rational, magnitude_eq]
  exact Decimal.isNearest_toBinary64 hfin

theorem isNegative_value (n : Numeral) : n.value.isNegative = n.negative :=
  n.toDecimal.isNegative_toBinary64 n.negative

/-! ### Literals -/

/-- `s` is a numeral in range, and `x` is the double nearest to it, with its own sign also where that is zero. -/
def Literal (s : List Char) (x : Binary64) : Prop :=
  ∃ n, Spells s n ∧ |n.rational| < 2 ^ 1024 - 2 ^ 970 ∧ x.IsNearest n.rational ∧ x.isNegative = n.negative

theorem literal_iff {s : List Char} {x : Binary64} :
    Literal s x ↔ ∃ n, Spells s n ∧ n.value = x ∧ x.isFinite = true := by
  refine exists_congr fun n => and_congr_right fun _ => ?_
  constructor
  · rintro ⟨hrange, hnearest, hsign⟩
    have hfin := n.isFinite_value_iff.mpr hrange
    exact ⟨(isNearest_value hfin).unique hnearest (n.isNegative_value.trans hsign.symm), hnearest.isFinite⟩
  · rintro ⟨rfl, hfin⟩
    exact ⟨n.isFinite_value_iff.mp hfin, isNearest_value hfin, n.isNegative_value⟩

/-- **Literals** are the texts that are accepted with a finite value. -/
theorem finite?_eq_some_iff {s : List Char} {x : Binary64} : finite? s = some x ↔ Literal s x :=
  finite?_eq_some_iff_value.trans literal_iff.symm

theorem Literal.isFinite {s : List Char} {x : Binary64} (h : Literal s x) : x.isFinite = true := by
  obtain ⟨n, -, -, hnearest, -⟩ := h
  exact hnearest.isFinite

theorem not_mem_of_literal {s : List Char} {x : Binary64} (h : Literal s x) {c : Char}
    (hc : ¬ IsNumeralChar c) : c ∉ s := by
  obtain ⟨n, hn, -⟩ := h
  exact fun hmem => hc (isNumeralChar_of_spells hn c hmem)

end Numeral

end PlaneSketch
