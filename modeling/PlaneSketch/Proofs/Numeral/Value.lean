import PlaneSketch.Proofs.Decimal.Layout
import PlaneSketch.Rectangle

/-!
# Reading a number

A text is read as a number exactly if it is a numeral whose value is below `2 ^ 1024 - 2 ^ 970` on either side of zero,
and then as the double nearest to that value. The text of a finite double is read as that double.

* `readNumber_spec`: what is accepted, and with which result.
-/

namespace PlaneSketch.Numeral

open Text Binary64

/-! ### Reading -/

theorem isSome_finite?_iff {s : List Char} :
    (finite? s).isSome = true ↔ ∃ n, Spells s n ∧ |n.rational| < 2 ^ 1024 - 2 ^ 970 := by
  rw [Option.isSome_iff_exists]
  constructor
  · rintro ⟨x, hx⟩
    obtain ⟨n, hn, rfl, hfin⟩ := finite?_eq_some_iff_value.mp hx
    exact ⟨n, hn, n.isFinite_value_iff.mp hfin⟩
  · rintro ⟨n, hn, hrange⟩
    exact ⟨n.value, finite?_eq_some_iff_value.mpr ⟨n, hn, rfl, n.isFinite_value_iff.mpr hrange⟩⟩

/-- The text of a finite double is read as that double. -/
theorem readNumber_text {x : Binary64} (hx : x.isFinite = true) : readNumber x.text = .ok x := by
  rw [readNumber, finite?_eq_some_iff.mpr (literal_text hx)]

/-- **Reading a number.** The recogniser holds of the numerals in range and of nothing else. Such a numeral is read as
the double nearest to its exact value, with its own sign also where that double is zero; any other text is refused. -/
theorem readNumber_spec (s : String) :
    ((finite? s.toList).isSome = true ↔ ∃ n, Spells s.toList n ∧ |n.rational| < 2 ^ 1024 - 2 ^ 970) ∧
      (∀ n, Spells s.toList n → |n.rational| < 2 ^ 1024 - 2 ^ 970 →
        ∃ x, readNumber s = .ok x ∧ x.IsNearest n.rational ∧ x.isNegative = n.negative) ∧
      ((¬ ∃ n, Spells s.toList n ∧ |n.rational| < 2 ^ 1024 - 2 ^ 970) →
        readNumber s = .error (.invalidNumber s)) := by
  refine ⟨isSome_finite?_iff, ?_, ?_⟩
  · intro n hn hrange
    have hfin : n.value.isFinite = true := n.isFinite_value_iff.mpr hrange
    have hread : finite? s.toList = some n.value := finite?_eq_some_iff_value.mpr ⟨n, hn, rfl, hfin⟩
    exact ⟨n.value, by rw [readNumber, hread], isNearest_value hfin, n.isNegative_value⟩
  · intro hno
    have hread : finite? s.toList = none := by
      rw [← Option.not_isSome_iff_eq_none, isSome_finite?_iff]
      exact hno
    rw [readNumber, hread]

/-- Digits of two scripts in one numeral, and a numeral out of range. -/
theorem readNumber_mixed_digits :
    (∃ x, readNumber "-٣.5e-1" = .ok x ∧ x.IsNearest (-(7 / 20)) ∧ x.isNegative = true) ∧
      readNumber "1e309" = .error (.invalidNumber "1e309") := by
  constructor
  · have hspells : Spells "-٣.5e-1".toList ⟨true, [3], [5], -1⟩ := read?_eq_some_iff.mp (by decide)
    have hrange := (isFinite_value_iff ⟨true, [3], [5], -1⟩).mp (by decide +kernel)
    have hrational : rational ⟨true, [3], [5], -1⟩ = -(7 / 20) := by
      norm_num [rational, magnitude, digitsValue]
    rw [← hrational]
    exact (readNumber_spec "-٣.5e-1").2.1 _ hspells hrange
  · refine (readNumber_spec "1e309").2.2 ?_
    rintro ⟨n, hn, hrange⟩
    have hread : read? "1e309".toList = some ⟨false, [1], [], 309⟩ := by decide
    rw [← read?_eq_some_iff, hread, Option.some.injEq] at hn
    rw [← isFinite_value_iff, ← hn] at hrange
    exact absurd hrange (by decide +kernel)

end PlaneSketch.Numeral
