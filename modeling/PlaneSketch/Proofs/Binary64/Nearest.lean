import Mathlib.Tactic.FieldSimp
import PlaneSketch.Proofs.Binary64.Order
import PlaneSketch.Proofs.Number.Rational
import PlaneSketch.Proofs.Rounding.Floats

/-!
# The double nearest to a rational number

`IsNearest x q` says that no finite double is nearer to `q` than `x`, and that the significand of `x` is even where
another one is just as near. A rounded quotient is the nearest double as long as it is finite, which it is below the
point half-way between the greatest double and the limit of the range: that point itself rounds to the even side.

* `isFinite_ofRatio_iff`: the quotients in range.
* `isNearest_ofRatio`: a rounded quotient is the nearest double.
* `IsNearest.unique`: there is only one, up to the sign of zero.
-/

namespace PlaneSketch.Binary64

/-! ### The range -/

/-- The units half-way between the greatest double and the limit of the range. -/
@[irreducible] def overflowUnits : ℕ := (Nat.pow 2 1024 - Nat.pow 2 970) * unitsPerOne

/-- Quotients are rounded into the range below the point half-way between the greatest double and its limit. -/
theorem round_lt_limit_iff {num den : ℕ} (hden : 0 < den) :
    Precision.double.round num den < Precision.double.limit ↔ num < overflowUnits * den :=
  Precision.double.round_lt_limit_iff ((Nat.pow 2 1024 - Nat.pow 2 971) * unitsPerOne) overflowUnits
    (by decide +kernel) (by decide +kernel) (by decide +kernel) (by decide +kernel) hden

theorem isFinite_ofRatio_iff_round_lt {s : Bool} {num den : ℕ} :
    (ofRatio s num den).isFinite = true ↔ Precision.double.round num den < Precision.double.limit := by
  unfold ofRatio
  dsimp only
  split_ifs with hlt <;> simp [isFinite, hlt]

theorem isFinite_ofRatio_iff {num den : ℕ} (hden : 0 < den) (s : Bool) :
    (ofRatio s num den).isFinite = true ↔ num < overflowUnits * den := by
  rw [isFinite_ofRatio_iff_round_lt, round_lt_limit_iff hden]

theorem isNegative_ofRatio (s : Bool) (num den : ℕ) : (ofRatio s num den).isNegative = s := by
  unfold ofRatio
  dsimp only
  split_ifs <;> rfl

/-! ### The nearest double -/

/-- The last binary digit of the significand is zero. -/
def HasEvenSignificand : Binary64 → Prop
  | finite _ n _ => 2 * Precision.double.spacing n ∣ n
  | _ => False

/-- `x` is the double nearest to `q`; of two equally near ones, the one with the even significand. -/
structure IsNearest (x : Binary64) (q : ℚ) : Prop where
  isFinite : x.isFinite = true
  nearest : ∀ (y : Binary64) (u v : ℚ), x.rational? = some u → y.rational? = some v → |u - q| ≤ |v - q|
  even : ∀ (y : Binary64) (u v : ℚ), x.rational? = some u → y.rational? = some v → v ≠ u →
    |u - q| = |v - q| → x.HasEvenSignificand

/-- The exact value of `num / den` units with the given sign. -/
def ratioValue (s : Bool) (num den : ℕ) : ℚ := (if s then -(num : ℤ) else num : ℤ) / (den * unitsPerOne)

/-- Distances from a quotient are measured without its sign. -/
theorem abs_sub_ratioValue {den : ℕ} (hden : 0 < den) (s : Bool) (num : ℕ) (u : ℤ) :
    |(u / unitsPerOne : ℚ) - ratioValue s num den| =
      (|(if s then -u else u) * den - num| : ℤ) / (den * unitsPerOne) := by
  have hd : (0 : ℚ) < den := Nat.cast_pos.mpr hden
  have hunits := cast_unitsPerOne_pos
  have hdiff : (u / unitsPerOne : ℚ) - ratioValue s num den =
      (u * den - (if s then -(num : ℤ) else num) : ℤ) / (den * unitsPerOne) := by
    rw [ratioValue]
    push_cast
    field_simp
  have hsign : |u * den - (if s then -(num : ℤ) else num)| = |(if s then -u else u) * den - num| := by
    cases s with
    | false => rfl
    | true =>
      rw [if_pos rfl, if_pos rfl, ← abs_neg]
      congr 1
      ring
  rw [hdiff, abs_div, abs_of_pos (mul_pos hd hunits), ← Int.cast_abs, hsign]

theorem rational?_eq_some_iff {x : Binary64} {q : ℚ} : x.rational? = some q ↔
    ∃ s n, ∃ h : FitsDouble n, x = finite s n h ∧ q = (if s then -(n : ℤ) else n : ℤ) / unitsPerOne := by
  cases x with
  | nan => simp [rational?]
  | infinite s => simp [rational?]
  | finite s n h =>
    simp only [rational?, Option.some.injEq, finite.injEq]
    constructor
    · rintro rfl
      exact ⟨s, n, h, ⟨rfl, rfl⟩, rfl⟩
    · rintro ⟨_, _, -, ⟨rfl, rfl⟩, rfl⟩
      rfl

/-- Finite doubles of the same value and the same sign are the same. -/
theorem eq_of_rational?_eq {x y : Binary64} {q : ℚ} (hx : x.rational? = some q) (hy : y.rational? = some q)
    (hsign : x.isNegative = y.isNegative) : x = y := by
  obtain ⟨s, m, hm, rfl, hxq⟩ := rational?_eq_some_iff.mp hx
  obtain ⟨t, n, hn, rfl, rfl⟩ := rational?_eq_some_iff.mp hy
  obtain rfl : s = t := hsign
  have hunits : (if s then -(m : ℤ) else m) = if s then -(n : ℤ) else n := by
    rw [div_left_inj' cast_unitsPerOne_pos.ne'] at hxq
    exact_mod_cast hxq.symm
  obtain rfl : m = n := by
    split at hunits <;> omega
  rfl

/-- **A rounded quotient** is the nearest double, if it is in range. -/
theorem isNearest_ofRatio {s : Bool} {num den : ℕ} (hden : 0 < den) (hfin : (ofRatio s num den).isFinite = true) :
    (ofRatio s num den).IsNearest (ratioValue s num den) := by
  have hstep : (0 : ℚ) < den * unitsPerOne :=
    mul_pos (Nat.cast_pos.mpr hden) cast_unitsPerOne_pos
  have hlt := (round_lt_limit_iff hden).mpr ((isFinite_ofRatio_iff hden s).mp hfin)
  obtain ⟨r, hr, hround, hratio⟩ :
      ∃ r hr, Precision.double.round num den = r ∧ ofRatio s num den = finite s r hr := ⟨_, _, rfl, dif_pos hlt⟩
  -- both distances are brought to the same denominator, where the theorems on grids compare whole numbers
  have hself : ∀ u, (finite s r hr).rational? = some u →
      |u - ratioValue s num den| = (|(r * den - num : ℤ)| : ℤ) / (den * unitsPerOne) := by
    rintro u hu
    rw [← Option.some.inj hu, abs_sub_ratioValue hden]
    cases s <;> simp
  -- a double of the other sign stands at the negative of its count, which is a point of the grid as well
  have hother : ∀ y v, rational? y = some v → ∃ m : ℤ, Precision.double.Aligned m.natAbs ∧
      (m = r → (finite s r hr).rational? = some v) ∧
      |v - ratioValue s num den| = (|m * den - num| : ℤ) / (den * unitsPerOne) := by
    intro y v hv
    obtain ⟨t, n, hn, -, rfl⟩ := rational?_eq_some_iff.mp hv
    refine ⟨if s then -(if t then -(n : ℤ) else n) else (if t then -(n : ℤ) else n), ?_, ?_,
      abs_sub_ratioValue hden s num _⟩
    · have hunits : (if s then -(if t then -(n : ℤ) else n) else (if t then -(n : ℤ) else n)).natAbs = n := by
        cases s <;> cases t <;> simp
      rw [hunits]
      exact hn.aligned
    · intro hm
      simp only [rational?, ← hm]
      cases s <;> simp
  rw [hratio]
  refine ⟨rfl, ?_, ?_⟩
  · intro y u v hu hv
    obtain ⟨m, hm, -, hdist⟩ := hother y v hv
    rw [hself u hu, hdist, div_le_div_iff_of_pos_right hstep, ← hround]
    exact_mod_cast Precision.double.abs_round_sub_le hden num hm
  · intro y u v hu hv hne htie
    obtain ⟨m, hm, hsame, hdist⟩ := hother y v hv
    rw [hself u hu, hdist, div_left_inj' hstep.ne', ← hround] at htie
    have heven := Precision.double.two_mul_spacing_dvd_round (by decide) hden hm ?_ (by exact_mod_cast htie)
    · rw [hround] at heven
      exact heven
    · rw [hround]
      intro hmr
      exact hne (Option.some.inj ((hsame hmr).symm.trans hu))

/-! ### Uniqueness -/

theorem cast_unitsPerOne : (unitsPerOne : ℚ) = 2 ^ 1074 := by
  obtain ⟨k, hk, hunits⟩ : ∃ k, k = 1074 ∧ unitsPerOne = Nat.pow 2 k := ⟨1074, rfl, by unfold unitsPerOne; rfl⟩
  rw [hunits, ← hk, Nat.pow_eq, Nat.cast_pow, Nat.cast_ofNat]

/-- The values of the finite doubles are the floating numbers of 53 digits. -/
theorem exists_rational?_iff {v : ℚ} : (∃ y : Binary64, y.rational? = some v) ↔ v ∈ floats 53 (-1074) 1024 := by
  have hunits : ∀ u : ℤ, (u / unitsPerOne : ℚ) ∈ floats 53 (-1074) 1024 ↔
      u.natAbs < Precision.double.limit ∧ Precision.double.Aligned u.natAbs := fun u => by
    rw [cast_unitsPerOne]
    exact Precision.double.div_mem_floats_iff (show _ = 1024 + 1074 from rfl)
  constructor
  · rintro ⟨y, hy⟩
    obtain ⟨s, n, hn, -, rfl⟩ := rational?_eq_some_iff.mp hy
    have hnat : (if s then -(n : ℤ) else n).natAbs = n := by split <;> simp
    rw [hunits, hnat]
    exact ⟨hn.below, hn.aligned⟩
  · intro hv
    obtain ⟨u, rfl⟩ : ∃ u : ℤ, v = u / unitsPerOne := by
      have hv : v ∈ floats 53 ((0 : ℕ) - (1074 : ℕ)) 1024 := hv
      rw [cast_unitsPerOne]
      exact exists_eq_div_two_pow hv
    obtain ⟨hbelow, haligned⟩ := (hunits u).mp hv
    refine ⟨finite (decide (u < 0)) u.natAbs ⟨haligned, hbelow⟩, ?_⟩
    have hsigned : (if u < 0 then -(u.natAbs : ℤ) else u.natAbs) = u := by
      split <;> omega
    simp only [rational?, decide_eq_true_eq, hsigned]

theorem mem_floats_of_hasEvenSignificand {x : Binary64} {u : ℚ} (hu : x.rational? = some u)
    (heven : x.HasEvenSignificand) : u ∈ floats 52 (-1073) 1024 := by
  obtain ⟨s, n, hn, rfl, rfl⟩ := rational?_eq_some_iff.mp hu
  have hnat : (if s then -(n : ℤ) else n).natAbs = n := by split <;> simp
  rw [cast_unitsPerOne]
  exact Precision.double.div_mem_floats_of_even (show _ = 1024 + 1074 from rfl) rfl (hnat.symm ▸ hn.below)
    (hnat.symm ▸ heven)

theorem IsNearest.isNearestIn {x : Binary64} {u q : ℚ} (h : x.IsNearest q) (hu : x.rational? = some u) :
    IsNearestIn (floats 53 (-1074) 1024) (floats 52 (-1073) 1024) u q := by
  refine ⟨exists_rational?_iff.mp ⟨x, hu⟩, fun v hv => ?_, fun v hv hne htie => ?_⟩
  · obtain ⟨y, hy⟩ := exists_rational?_iff.mpr hv
    exact h.nearest y u v hu hy
  · obtain ⟨y, hy⟩ := exists_rational?_iff.mpr hv
    exact mem_floats_of_hasEvenSignificand hu (h.even y u v hu hy hne htie)

/-- **The nearest double** is determined by its sign, which tells the zeros apart. -/
theorem IsNearest.unique {x y : Binary64} {q : ℚ} (hx : x.IsNearest q) (hy : y.IsNearest q)
    (hsign : x.isNegative = y.isNegative) : x = y := by
  obtain ⟨u, hu⟩ := exists_rational_iff.mpr hx.isFinite
  obtain ⟨v, hv⟩ := exists_rational_iff.mpr hy.isFinite
  obtain rfl : u = v := (hx.isNearestIn hu).unique_float (hy.isNearestIn hv)
  exact eq_of_rational?_eq hu hv hsign

end PlaneSketch.Binary64
