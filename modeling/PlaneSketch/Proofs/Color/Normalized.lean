import Mathlib.Tactic.FieldSimp
import PlaneSketch.Proofs.Color.Range

/-!
# What becomes of a colour

A colour whose components are in range comes back from hue, saturation and lightness in range, or it is refused: for a
saturation or a lightness out of range, or because the sum of its smallest and its largest component is zero where it is
divided by. A colour between black and white always comes back.

* `Rgb.normalized_within`: what is not refused is in range.
* `Rgb.exists_normalized`: nothing between zero and one is refused.
* `Rgb.normalized_eq_cancelling_iff`, `Rgb.normalized_fault`: what is refused.
-/

namespace PlaneSketch

open Binary64

namespace Rgb

variable {E T a b : ℚ} {c c' : Rgb} {L H D S M : ℚ}

/-! ### Ranges -/

theorem checkRange_eq_ok_iff : c.checkRange = .ok () ↔ ∀ x ∈ c.channels, inRange x = true := by
  simp only [checkRange, channels, List.forall_mem_cons]
  cases inRange c.red <;> cases inRange c.green <;> cases inRange c.blue <;> simp

theorem checkRange_fault {fault : Fault} (h : c.checkRange = .error fault) :
    ∃ k x, fault = .componentOutOfRange k x ∧ x ∈ c.channels ∧ inRange x = false := by
  unfold checkRange at h
  split_ifs at h with hred hgreen hblue
  · exact ⟨.red, c.red, (Except.error.inj h).symm, by simp [channels], by simpa using hred⟩
  · exact ⟨.green, c.green, (Except.error.inj h).symm, by simp [channels], by simpa using hgreen⟩
  · exact ⟨.blue, c.blue, (Except.error.inj h).symm, by simp [channels], by simpa using hblue⟩

theorem Within.mono (h : c.Within a b) {a' b' : ℚ} (ha : a' ≤ a) (hb : b ≤ b') : c.Within a' b' := by
  intro x hx
  obtain ⟨X, hX, hlow, hhigh⟩ := h x hx
  exact ⟨X, hX, ha.trans hlow, hhigh.trans hb⟩

theorem checkRange_of_within (hrange : Range E T) (h : c.Within (-E) T) : c.checkRange = .ok () :=
  checkRange_eq_ok_iff.mpr fun x hx => (inRange_iff hrange).mpr (h x hx)

/-- Components in range that are at most one. -/
theorem within_of_checkRange (hrange : Range E T) (hcheck : c.checkRange = .ok ()) (hone : ∀ x ∈ c.channels, x ≤ 1) :
    c.Within (-E) 1 := by
  intro x hx
  obtain ⟨X, hX, hlow, -⟩ := (inRange_iff hrange).mp (checkRange_eq_ok_iff.mp hcheck x hx)
  exact ⟨X, hX, hlow, (le_iff_of_rational hX rational_one).mp (hone x hx)⟩

theorem inRange_of_toRgb {h s l : Binary64} (hc : Hsl.toRgb ⟨h, s, l⟩ = .ok c) :
    inRange s = true ∧ inRange l = true := by
  rw [Hsl.toRgb_eq] at hc
  split_ifs at hc with hs hl <;> simp_all

/-- Without saturation, all components are the lightness. -/
theorem toRgb_grey {h l : Binary64} (hc : Hsl.toRgb ⟨h, 0, l⟩ = .ok c) : c = ⟨l, l, l⟩ := by
  have hzero : ((0 : Binary64) == 0) = true := (beq_iff_of_rational rational_zero rational_zero).mpr rfl
  rw [Hsl.toRgb_eq] at hc
  split_ifs at hc
  exact (Except.ok.inj hc).symm

/-! ### Saturations -/

namespace Measures

variable (hm : c.Measures L H D S M)
include hm

theorem exists_hue (hspread : 1 / 2 ^ 22 ≤ D) (hD : D ≤ 2) :
    ∃ W, (c.hue c.greatest c.spread).rational? = some W ∧ 0 ≤ W ∧ W ≤ 2 := by
  obtain ⟨R, hR, hRmem⟩ := hm.within c.red (by simp [channels])
  obtain ⟨G, hG, hGmem⟩ := hm.within c.green (by simp [channels])
  obtain ⟨B, hB, hBmem⟩ := hm.within c.blue (by simp [channels])
  exact Rgb.exists_hue hR hG hB hRmem hGmem hBmem hm.greatest hm.spread hspread hm.spread_near.1 hD

/-- What the spread is divided by for a light colour is above zero. -/
theorem exists_rest (hL : -1 ≤ L) (hH : H ≤ 1) (hLH : L ≤ H) :
    ∃ N, Rounded (2 - c.sum) (2 - S) N ∧ D - 1 / 2 ^ 46 ≤ N := by
  obtain ⟨hDlow, hDhigh⟩ := hm.spread_near
  obtain ⟨hSlow, hShigh⟩ := hm.sum_near
  obtain ⟨N, hN, hNlow, -⟩ := (isRounding_sub (rational_literal 2 (by decide)) hm.sum.value).exists_near
    (by linarith) (by linarith)
  exact ⟨N, hN, by linarith⟩

/-- The saturation of a colour that is not refused. -/
theorem exists_saturation (hrange : Range E T) {y : Binary64} {Y : ℚ} (hy : y.rational? = some Y)
    (hin : inRange (c.spread / y) = true) (hD : E ≤ D) (hne : Y ≠ 0) (hlow : -(3 * E) ≤ Y) :
    0 < Y ∧ ∃ v, (c.spread / y).rational? = some v ∧ 0 ≤ v ∧ v ≤ 1 + 6 / 10 ^ 7 := by
  have hEpos : 0 < E := lt_of_lt_of_le (by norm_num) hrange.tolerance_ge
  have hElow := hrange.tolerance_le
  have hThigh := hrange.upper_le
  obtain ⟨v, hv, hvlow, hvhigh⟩ := (inRange_iff hrange).mp hin
  have hround := (isRounding_div hm.spread.value hy hne).rounded hv
  have hpos : 0 < Y := by
    -- a negative quotient would lie below the range
    by_contra hneg
    have hneg : Y < 0 := lt_of_le_of_ne (not_lt.mp hneg) hne
    have hquotient : D / Y ≤ -(1 / 4) := by
      rw [div_le_iff_of_neg hneg]
      linarith
    have hquarter : IsValue (1 / 4) := by
      have hvalue := isValue_natCast_div (k := 2 ^ 47) (by norm_num)
      norm_num at hvalue ⊢
      exact hvalue
    have := hround.le hquarter.neg hquotient
    linarith
  refine ⟨hpos, v, hv, hround.ge isValue_zero (div_nonneg (by linarith) hpos.le), by linarith⟩

/-! ### Lightnesses -/

theorem middle_le_one (hLH : L ≤ H) (hH : H ≤ 1) : M ≤ 1 := by
  have hS : S ≤ 2 := hm.sum.le isValue_two (by linarith)
  exact hm.middle.le isValue_one (by linarith)

/-- The lightness is no further below zero than the components may be. -/
theorem neg_tolerance_le_middle (hrange : Range E T) (hLH : L ≤ H) (hL : -E ≤ L) : -E ≤ M := by
  have hElow := hrange.tolerance_ge
  have hEhigh := hrange.tolerance_le
  have hE : IsValue E := ⟨_, hrange.tolerance⟩
  have hS : -(2 * E) ≤ S :=
    hm.sum.ge (hE.two_mul (abs_le.mpr ⟨by linarith, by linarith⟩)).neg (by linarith)
  exact hm.middle.ge hE.neg (by linarith)

/-- A saturation in range brings back components in range. -/
theorem within_of_toRgb (hrange : Range E T) (hL : -E ≤ L) (hLH : L ≤ H) (hH : H ≤ 1) (hD : E ≤ D) (hM : 0 ≤ M)
    {s : Binary64} {v : ℚ} (hs : s.rational? = some v) (hv : 0 ≤ v ∧ v ≤ 1 + 6 / 10 ^ 7)
    (hback : Hsl.toRgb ⟨c.hue c.greatest c.spread, s, c.middle⟩ = .ok c') : c'.Within (-E) (1 + 1 / 2 ^ 21) := by
  have hElow := hrange.tolerance_ge
  have hEhigh := hrange.tolerance_le
  obtain ⟨W, hW, hWmem⟩ := hm.exists_hue (by linarith) (by linarith [hm.spread_near.2])
  have hwithin := Hsl.toRgb_within hW hs hm.middle.value hWmem hv ⟨hM, hm.middle_le_one hLH hH⟩ hback
  exact hwithin.mono (by linarith) le_rfl

end Measures

/-- **What is not refused is in range**: a colour of components that are at most one comes back with all components in
range, up to the tolerance. -/
theorem normalized_within (hrange : Range E T) (hone : ∀ x ∈ c.channels, x ≤ 1) (hc : c.normalized = .ok c') :
    c'.Within (-E) (1 + 1 / 2 ^ 21) := by
  have hElow := hrange.tolerance_ge
  have hEhigh := hrange.tolerance_le
  obtain ⟨hsl, hto, hback⟩ := exists_of_bind_eq_ok hc
  rw [toHsl_eq] at hto
  obtain ⟨⟨⟩, hcheck, hto⟩ := exists_of_bind_eq_ok hto
  obtain ⟨L, H, D, S, M, hm, hL, hLH, hH⟩ := exists_measures (within_of_checkRange hrange hcheck hone)
    (by linarith) le_rfl
  obtain ⟨hSlow, hShigh⟩ := hm.sum_near
  split_ifs at hto with hgrey hdark hzero
  · cases hto
    rw [toRgb_grey hback]
    have hM := hm.neg_tolerance_le_middle hrange hLH hL
    have hM1 := hm.middle_le_one hLH hH
    simpa [Within, channels, hm.middle.value] using ⟨hM, by linarith⟩
  · cases hto
    rw [lt_iff_of_rational hm.spread.value hrange.tolerance, not_lt] at hgrey
    have hS : S ≠ 0 := fun hS => hzero ((beq_iff_of_rational hm.sum.value rational_zero).mpr hS)
    obtain ⟨hSpos, v, hv, hv01⟩ := hm.exists_saturation hrange hm.sum.value (inRange_of_toRgb hback).1 hgrey hS
      (by linarith)
    have hM : 0 ≤ M := hm.middle.ge isValue_zero (by linarith)
    exact hm.within_of_toRgb hrange hL hLH hH hgrey hM hv hv01 hback
  · cases hto
    rw [lt_iff_of_rational hm.spread.value hrange.tolerance, not_lt] at hgrey
    rw [lt_iff_of_rational hm.middle.value rational_half, not_lt] at hdark
    obtain ⟨N, hN, hNlow⟩ := hm.exists_rest (by linarith) hH hLH
    have hNpos : 0 < N := by linarith
    obtain ⟨-, v, hv, hv01⟩ := hm.exists_saturation hrange hN.value (inRange_of_toRgb hback).1 hgrey hNpos.ne'
      (by linarith)
    exact hm.within_of_toRgb hrange hL hLH hH hgrey (by linarith) hv hv01 hback

/-! ### Colours between black and white -/

/-- The spread over something that is hardly less is in range. -/
theorem Measures.inRange_saturation (hm : c.Measures L H D S M) (hrange : Range E T) {y : Binary64} {Y : ℚ}
    (hy : y.rational? = some Y) (hD : E ≤ D) (hDY : D - 1 / 2 ^ 46 ≤ Y) : inRange (c.spread / y) = true := by
  have hElow := hrange.tolerance_ge
  have hTlow := hrange.upper_ge
  have hpos : 0 < Y := by linarith
  have hlow : 0 ≤ D / Y := div_nonneg (by linarith) hpos.le
  have hhigh : D / Y ≤ T := by
    rw [div_le_iff₀ hpos]
    nlinarith
  obtain ⟨v, hv, -⟩ := (isRounding_div hm.spread.value hy hpos.ne').exists_near (by linarith)
    (hhigh.trans (by linarith [hrange.upper_le, hrange.tolerance_le]))
  exact (inRange_iff hrange).mpr ⟨v, hv.value, by linarith [hv.ge isValue_zero hlow], hv.le ⟨_, hrange.upper⟩ hhigh⟩

/-- The way back fails only for a saturation or a lightness out of range. -/
theorem exists_toRgb {h s l : Binary64} (hs : inRange s = true) (hl : inRange l = true) :
    ∃ c, Hsl.toRgb ⟨h, s, l⟩ = .ok c := by
  rw [Hsl.toRgb_eq, hs, hl]
  simp only [Bool.not_true, Bool.false_eq_true, if_false]
  split_ifs <;> exact ⟨_, rfl⟩

/-- **Nothing between black and white is refused.** -/
theorem exists_normalized (hc : c.Within 0 1) : ∃ c', c.normalized = .ok c' := by
  obtain ⟨E, T, hrange⟩ := exists_range
  have hElow := hrange.tolerance_ge
  have hTlow := hrange.upper_ge
  have hcheck : c.checkRange = .ok () := checkRange_of_within hrange (hc.mono (by linarith) (by linarith))
  obtain ⟨L, H, D, S, M, hm, hL, hLH, hH⟩ := exists_measures hc (by norm_num) le_rfl
  obtain ⟨hDlow, hDhigh⟩ := hm.spread_near
  obtain ⟨hSlow, hShigh⟩ := hm.sum_near
  have hS0 : 0 ≤ S := hm.sum.ge isValue_zero (by linarith)
  have hlightness : inRange c.middle = true := (inRange_iff hrange).mpr
    ⟨M, hm.middle.value, by linarith [hm.middle.ge isValue_zero (by linarith)],
      by linarith [hm.middle_le_one hLH hH]⟩
  have hgrey : inRange 0 = true := (inRange_iff hrange).mpr ⟨0, rational_zero, by linarith, by linarith⟩
  obtain ⟨h, s, hto, hs⟩ : ∃ h s, c.toHsl = .ok ⟨h, s, c.middle⟩ ∧ inRange s = true := by
    simp only [toHsl_eq, hcheck, bind, Except.bind]
    split_ifs with hspread hdark hzero
    · exact ⟨0, 0, rfl, hgrey⟩
    · -- the sum is no smaller than the spread, so it is not zero
      rw [lt_iff_of_rational hm.spread.value hrange.tolerance, not_lt] at hspread
      rw [beq_iff_of_rational hm.sum.value rational_zero] at hzero
      linarith
    · rw [lt_iff_of_rational hm.spread.value hrange.tolerance, not_lt] at hspread
      exact ⟨_, _, rfl, hm.inRange_saturation hrange hm.sum.value hspread (by linarith)⟩
    · rw [lt_iff_of_rational hm.spread.value hrange.tolerance, not_lt] at hspread
      obtain ⟨N, hN, hNlow⟩ := hm.exists_rest (by linarith) hH hLH
      exact ⟨_, _, rfl, hm.inRange_saturation hrange hN.value hspread hNlow⟩
  obtain ⟨c', hback⟩ := exists_toRgb hs hlightness (h := h)
  refine ⟨c', ?_⟩
  simp only [normalized, hto, hback, bind, Except.bind]

/-! ### Faults -/

theorem smaller_eq (x y : Binary64) : smaller x y = x ∨ smaller x y = y := by
  unfold smaller
  split <;> simp

theorem larger_eq (x y : Binary64) : larger x y = x ∨ larger x y = y := by
  unfold larger
  split <;> simp

theorem least_mem (c : Rgb) : c.least ∈ c.channels := by
  rcases smaller_eq (smaller c.red c.green) c.blue with h | h
  · rcases smaller_eq c.red c.green with h' | h' <;> rw [least, h, h'] <;> simp [channels]
  · rw [least, h]
    simp [channels]

theorem greatest_mem (c : Rgb) : c.greatest ∈ c.channels := by
  rcases larger_eq (larger c.red c.green) c.blue with h | h
  · rcases larger_eq c.red c.green with h' | h' <;> rw [greatest, h, h'] <;> simp [channels]
  · rw [greatest, h]
    simp [channels]

/-- The smallest and the largest component are opposite to each other, and so far apart that they count as different,
but still in range. -/
def Cancels (c : Rgb) : Prop :=
  ∃ E m, tolerance.rational? = some E ∧ c.Within (-m) m ∧ (∃ x ∈ c.channels, x.rational? = some (-m)) ∧
    (∃ x ∈ c.channels, x.rational? = some m) ∧ E ≤ 2 * m ∧ m ≤ E

/-- The way back never divides by zero. -/
theorem normalized_eq_cancelling_iff_toHsl :
    c.normalized = .error .cancellingComponents ↔ c.toHsl = .error .cancellingComponents := by
  cases hto : c.toHsl with
  | error fault => simp [normalized, hto, bind, Except.bind]
  | ok hsl =>
    obtain ⟨h, s, l⟩ := hsl
    simp only [normalized, hto, bind, Except.bind, Hsl.toRgb_eq]
    split_ifs <;> simp

namespace Measures

variable (hm : c.Measures L H D S M)
include hm

/-- The way there divides by zero for a dark colour whose sum is zero, at a spread that counts. -/
theorem toHsl_eq_cancelling_iff (hrange : Range E T) (hcheck : c.checkRange = .ok ()) :
    c.toHsl = .error .cancellingComponents ↔ E ≤ D ∧ M < 1 / 2 ∧ S = 0 := by
  rw [← not_lt, ← lt_iff_of_rational hm.spread.value hrange.tolerance,
    ← lt_iff_of_rational hm.middle.value rational_half, ← beq_iff_of_rational hm.sum.value rational_zero]
  simp only [toHsl_eq, hcheck, bind, Except.bind]
  split_ifs <;> simp_all

/-- Only opposite components add up to zero. -/
theorem sum_eq_zero_iff : S = 0 ↔ L = -H := by
  constructor
  · intro hzero
    have hsum := add_eq_zero_of_rational hm.least hm.greatest (hzero ▸ hm.sum.value)
    linarith
  · intro hopposite
    have hzero : L + H = 0 := by linarith
    rw [← hzero]
    exact hm.sum.eq (hzero ▸ isValue_zero)

/-- Opposite components differ by twice the larger one, which is not rounded. -/
theorem spread_of_opposite (hopposite : L = -H) (hH : |H| ≤ 8) : D = 2 * H := by
  have htwice : H - L = 2 * H := by rw [hopposite]; ring
  rw [← htwice]
  refine hm.spread.eq ?_
  rw [htwice]
  exact IsValue.two_mul ⟨_, hm.greatest⟩ hH

end Measures

/-- **A division by zero** is due to components that cancel out. -/
theorem normalized_eq_cancelling_iff (hone : ∀ x ∈ c.channels, x ≤ 1) :
    c.normalized = .error .cancellingComponents ↔ c.Cancels := by
  obtain ⟨E, T, hrange⟩ := exists_range
  have hElow := hrange.tolerance_ge
  have hEhigh := hrange.tolerance_le
  have hTlow := hrange.upper_ge
  rw [normalized_eq_cancelling_iff_toHsl]
  constructor
  · intro hto
    cases hcheck : c.checkRange with
    | error fault =>
      obtain ⟨k, x, rfl, -⟩ := checkRange_fault hcheck
      simp [toHsl_eq, hcheck, bind, Except.bind] at hto
    | ok u =>
      obtain ⟨L, H, D, S, M, hm, hL, hLH, hH⟩ := exists_measures (within_of_checkRange hrange hcheck hone)
        (by linarith) le_rfl
      obtain ⟨hspread, -, hzero⟩ := (hm.toHsl_eq_cancelling_iff hrange hcheck).mp hto
      -- the sum of two doubles is rounded to zero only where it is zero
      obtain rfl := hm.sum_eq_zero_iff.mp hzero
      have hD := hm.spread_of_opposite rfl (abs_le.mpr ⟨by linarith, by linarith⟩)
      exact ⟨E, H, hrange.tolerance, hm.within, ⟨_, c.least_mem, hm.least⟩, ⟨_, c.greatest_mem, hm.greatest⟩,
        hD ▸ hspread, by linarith⟩
  · rintro ⟨E', m, hE', hwithin, ⟨x, hx, hxm⟩, ⟨y, hy, hym⟩, hmlow, hmhigh⟩
    obtain rfl : E = E' := Option.some.inj (hrange.tolerance.symm.trans hE')
    have hcheck : c.checkRange = .ok () := checkRange_of_within hrange (hwithin.mono (by linarith) (by linarith))
    obtain ⟨L, H, D, S, M, hm, hL, hLH, hH⟩ := exists_measures hwithin (by linarith) (by linarith)
    -- both bounds are reached, so they are the smallest and the largest component
    have hHm : H = m := by
      obtain ⟨Y, hY, -, hYH⟩ := hm.within y hy
      obtain rfl : Y = m := Option.some.inj (hY.symm.trans hym)
      exact le_antisymm hH hYH
    have hLm : L = -m := by
      obtain ⟨X, hX, hLX, -⟩ := hm.within x hx
      obtain rfl : X = -m := Option.some.inj (hX.symm.trans hxm)
      exact le_antisymm hLX hL
    subst hLm hHm
    have hS := hm.sum_eq_zero_iff.mpr rfl
    have hD := hm.spread_of_opposite rfl (abs_le.mpr ⟨by linarith, by linarith⟩)
    exact (hm.toHsl_eq_cancelling_iff hrange hcheck).mpr ⟨hD ▸ hmlow, by linarith [hm.middle_near.2], hS⟩

/-- **What a colour is refused for**: a component that is out of range, components that cancel out, or a saturation or
a lightness out of range. -/
theorem normalized_fault {fault : Fault} (hc : c.normalized = .error fault) :
    (∃ k x, fault = .componentOutOfRange k x ∧ x ∈ c.channels ∧ inRange x = false) ∨
      fault = .cancellingComponents ∨ ∃ k, fault = .convertedOutOfRange k := by
  cases hto : c.toHsl with
  | error fault' =>
    simp only [normalized, hto, bind, Except.bind, Except.error.injEq] at hc
    subst hc
    rw [toHsl_eq] at hto
    cases hcheck : c.checkRange with
    | error fault'' =>
      simp only [hcheck, bind, Except.bind, Except.error.injEq] at hto
      exact .inl (hto ▸ checkRange_fault hcheck)
    | ok u =>
      simp only [hcheck, bind, Except.bind] at hto
      split_ifs at hto
      exact .inr (.inl (Except.error.inj hto).symm)
  | ok hsl =>
    obtain ⟨h, s, l⟩ := hsl
    simp only [normalized, hto, bind, Except.bind, Hsl.toRgb_eq] at hc
    split_ifs at hc
    · exact .inr (.inr ⟨_, (Except.error.inj hc).symm⟩)
    · exact .inr (.inr ⟨_, (Except.error.inj hc).symm⟩)

end Rgb

end PlaneSketch
