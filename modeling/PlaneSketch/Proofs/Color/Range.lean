import PlaneSketch.Proofs.Canvas.Construction
import PlaneSketch.Proofs.Color.Hue

/-!
# Colours stay in range

The way through hue, saturation and lightness and back keeps a colour in its range up to the tolerance: a saturation in
range makes two ends that are, and components lie between them. The way there fails for components out of range, for
a sum of zero at a spread that counts, and for a saturation or a lightness out of range.

* `Rgb.Range`, `Rgb.inRange_iff`: the tolerance.
* `Rgb.Measures`: the values that are computed from a colour.
* `Hsl.exists_ends`: the ends between which components rise and fall.
-/

namespace PlaneSketch

open Binary64

namespace Rgb

/-! ### The tolerance -/

/-- `E` is the tolerance and `T` the upper end of the range. -/
structure Range (E T : ℚ) : Prop where
  tolerance : tolerance.rational? = some E
  lower : (0 - Rgb.tolerance).rational? = some (-E)
  upper : (1 + Rgb.tolerance).rational? = some T
  tolerance_ge : 5 / 10 ^ 7 - 1 / 2 ^ 49 ≤ E
  tolerance_le : E ≤ 5 / 10 ^ 7 + 1 / 2 ^ 49
  upper_ge : 1 + E - 1 / 2 ^ 49 ≤ T
  upper_le : T ≤ 1 + E + 1 / 2 ^ 49

theorem isRounding_tolerance : IsRounding tolerance (5 / 10 ^ 7) := by
  have hround := isRounding_ofFraction 5 (by decide : 0 < 10000000)
  norm_num at hround ⊢
  exact hround

theorem exists_range : ∃ E T, Range E T := by
  obtain ⟨E, hE, hElow, hEhigh⟩ := isRounding_tolerance.exists_near (by norm_num) (by norm_num)
  obtain ⟨T, hT, hTlow, hThigh⟩ := (isRounding_add rational_one hE.value).exists_near (by linarith) (by linarith)
  obtain ⟨N, hN, -⟩ := (isRounding_sub rational_zero hE.value).exists_near (by linarith) (by linarith)
  have hneg : N = -E := by
    rw [zero_sub] at hN
    exact hN.eq (IsValue.neg ⟨_, hE.value⟩)
  exact ⟨E, T, hE.value, hneg ▸ hN.value, hT.value, hElow, hEhigh, hTlow, hThigh⟩

variable {E T a b : ℚ} {c : Rgb} {x y : Binary64} {X Y : ℚ}

theorem inRange_iff (hrange : Range E T) : inRange x = true ↔ ∃ X, x.rational? = some X ∧ -E ≤ X ∧ X ≤ T := by
  simp only [inRange, Bool.and_eq_true, decide_eq_true_eq]
  constructor
  · rintro ⟨hlow, hhigh⟩
    exact exists_rational_of_between hrange.lower hrange.upper hlow hhigh
  · rintro ⟨X, hX, hlow, hhigh⟩
    exact ⟨(le_iff_of_rational hrange.lower hX).mpr hlow, (le_iff_of_rational hX hrange.upper).mpr hhigh⟩

/-! ### The smallest and the largest component -/

/-- The components in order. -/
def channels (c : Rgb) : List Binary64 := [c.red, c.green, c.blue]

/-- All components have values between `a` and `b`. -/
def Within (c : Rgb) (a b : ℚ) : Prop := ∀ x ∈ c.channels, ∃ X, x.rational? = some X ∧ a ≤ X ∧ X ≤ b

theorem rational_smaller (hx : x.rational? = some X) (hy : y.rational? = some Y) :
    (smaller x y).rational? = some (min X Y) := by
  unfold smaller
  split
  · rename_i hlt
    rw [hy, min_eq_right ((lt_iff_of_rational hy hx).mp hlt).le]
  · rename_i hge
    rw [hx, min_eq_left (not_lt.mp fun hlt => hge ((lt_iff_of_rational hy hx).mpr hlt))]

theorem rational_larger (hx : x.rational? = some X) (hy : y.rational? = some Y) :
    (larger x y).rational? = some (max X Y) := by
  unfold larger
  split
  · rename_i hlt
    rw [hy, max_eq_right ((lt_iff_of_rational hx hy).mp hlt).le]
  · rename_i hge
    rw [hx, max_eq_left (not_lt.mp fun hlt => hge ((lt_iff_of_rational hx hy).mpr hlt))]

/-- The smallest component. -/
def least (c : Rgb) : Binary64 := smaller (smaller c.red c.green) c.blue

/-- The largest component. -/
def greatest (c : Rgb) : Binary64 := larger (larger c.red c.green) c.blue

/-- The difference of the two. -/
def spread (c : Rgb) : Binary64 := c.greatest - c.least

/-- The sum of the two. -/
def sum (c : Rgb) : Binary64 := c.least + c.greatest

/-- The lightness. -/
def middle (c : Rgb) : Binary64 := c.sum / 2

theorem toHsl_eq (c : Rgb) : c.toHsl = (do
    c.checkRange
    if c.spread < tolerance then .ok ⟨0, 0, c.middle⟩
    else if c.middle < ofFraction 1 2 then
      if c.sum == 0 then .error .cancellingComponents
      else .ok ⟨c.hue c.greatest c.spread, c.spread / c.sum, c.middle⟩
    else .ok ⟨c.hue c.greatest c.spread, c.spread / (2 - c.sum), c.middle⟩) := rfl

/-- What a colour of moderate components has: `L` and `H` are the smallest and the largest of them, `D` the rounded
difference of the two, `S` their rounded sum, and `M` the rounded half of that. -/
structure Measures (c : Rgb) (L H D S M : ℚ) : Prop where
  within : c.Within L H
  least : c.least.rational? = some L
  greatest : c.greatest.rational? = some H
  spread : Rounded c.spread (H - L) D
  sum : Rounded c.sum (L + H) S
  middle : Rounded c.middle (S / 2) M
  spread_near : H - L - 1 / 2 ^ 49 ≤ D ∧ D ≤ H - L + 1 / 2 ^ 49
  sum_near : L + H - 1 / 2 ^ 49 ≤ S ∧ S ≤ L + H + 1 / 2 ^ 49
  middle_near : S / 2 - 1 / 2 ^ 49 ≤ M ∧ M ≤ S / 2 + 1 / 2 ^ 49

theorem exists_measures (hc : c.Within a b) (ha : -1 ≤ a) (hb : b ≤ 1) :
    ∃ L H D S M, c.Measures L H D S M ∧ a ≤ L ∧ L ≤ H ∧ H ≤ b := by
  obtain ⟨R, hR, hRlow, hRhigh⟩ := hc c.red (by simp [channels])
  obtain ⟨G, hG, hGlow, hGhigh⟩ := hc c.green (by simp [channels])
  obtain ⟨B, hB, hBlow, hBhigh⟩ := hc c.blue (by simp [channels])
  have hL := rational_smaller (rational_smaller hR hG) hB
  have hH := rational_larger (rational_larger hR hG) hB
  have hLow : a ≤ min (min R G) B := le_min (le_min hRlow hGlow) hBlow
  have hHigh : max (max R G) B ≤ b := max_le (max_le hRhigh hGhigh) hBhigh
  have hwithin : c.Within (min (min R G) B) (max (max R G) B) := by
    simp only [Within, channels, List.forall_mem_cons]
    exact ⟨⟨R, hR, by simp, by simp⟩, ⟨G, hG, by simp, by simp⟩, ⟨B, hB, by simp, by simp⟩, by simp⟩
  have hle : min (min R G) B ≤ max (max R G) B := (min_le_right _ _).trans (le_max_right _ _)
  generalize min (min R G) B = L at hL hLow hwithin hle
  generalize max (max R G) B = H at hH hHigh hwithin hle
  obtain ⟨D, hD, hDnear⟩ := (isRounding_sub hH hL).exists_near (by linarith) (by linarith)
  obtain ⟨S, hS, hSnear⟩ := (isRounding_add hL hH).exists_near (by linarith) (by linarith)
  obtain ⟨M, hM, hMnear⟩ := (isRounding_div hS.value (rational_literal 2 (by decide)) (by norm_num)).exists_near
    (by linarith) (by linarith)
  exact ⟨L, H, D, S, M, ⟨hwithin, hL, hH, hD, hS, hM, hDnear, hSnear, hMnear⟩, hLow, hle, hHigh⟩

end Rgb

/-! ### The ends of a component -/

theorem rational_half : (ofFraction 1 2).rational? = some (1 / 2) := by
  have hhalf : IsValue (1 / 2) := by
    have hvalue := isValue_natCast_div (k := 2 ^ 48) (by norm_num)
    norm_num at hvalue ⊢
    exact hvalue
  obtain ⟨h, hh, -⟩ := (isRounding_ofFraction 1 (by decide : 0 < 2)).exists_near (by norm_num) (by norm_num)
  rw [Nat.cast_one, Nat.cast_ofNat] at hh
  rw [← hh.eq hhalf, hh.value]

namespace Hsl

/-- The end that components rise to. -/
def upperEnd (s l : Binary64) : Binary64 := if l < ofFraction 1 2 then l * (1 + s) else l + s - s * l

/-- The end that components rise from. -/
def lowerEnd (s l : Binary64) : Binary64 := 2 * l - upperEnd s l

theorem toRgb_eq (h s l : Binary64) : toRgb ⟨h, s, l⟩ =
    if !Rgb.inRange s then .error (.convertedOutOfRange .saturation)
    else if !Rgb.inRange l then .error (.convertedOutOfRange .lightness)
    else if s == 0 then .ok ⟨l, l, l⟩
    else .ok ⟨component (lowerEnd s l) (upperEnd s l) (h + ofFraction 1 3), component (lowerEnd s l) (upperEnd s l) h,
      component (lowerEnd s l) (upperEnd s l) (h - ofFraction 1 3)⟩ := rfl

variable {h s l : Binary64} {H S L : ℚ}

/-- The upper end, and how far the lightness lies above the middle of the range. -/
theorem exists_upperEnd (hs : s.rational? = some S) (hl : l.rational? = some L) (hS : 0 ≤ S ∧ S ≤ 1 + 6 / 10 ^ 7)
    (hL : 0 ≤ L ∧ L ≤ 1) : ∃ B, (upperEnd s l).rational? = some B ∧ -1 / 2 ^ 45 ≤ B ∧
      B ≤ 1 + 3 / 10 ^ 7 + 1 / 2 ^ 45 ∧ -3 / 10 ^ 7 - 1 / 2 ^ 45 ≤ 2 * L - B ∧ 2 * L - B ≤ 1 + 1 / 2 ^ 45 := by
  unfold upperEnd
  split
  · rename_i hlt
    rw [lt_iff_of_rational hl rational_half] at hlt
    obtain ⟨p, hp, hplow, hphigh⟩ := (isRounding_add rational_one hs).exists_near (by linarith) (by linarith)
    obtain ⟨hLp, hLp'⟩ := mul_mem_of_mem (e := p) (w := L) (a := 0) (b := 2 + 6 / 10 ^ 7 + 1 / 2 ^ 49)
      ⟨by linarith, by linarith⟩ le_rfl (by norm_num) ⟨hL.1, hlt.le⟩
    obtain ⟨hrest, hrest'⟩ := mul_mem_of_mem (e := 2 - p) (w := L) (a := 6 / 10 ^ 7 + 1 / 2 ^ 49) (b := 1 + 1 / 2 ^ 49)
      ⟨by linarith, by linarith⟩ (by norm_num) (by norm_num) ⟨hL.1, hlt.le⟩
    obtain ⟨B, hB, hBlow, hBhigh⟩ := (isRounding_mul hl hp.value).exists_near (by linarith) (by linarith)
    exact ⟨B, hB.value, by linarith, by linarith, by linarith, by linarith⟩
  · rename_i hge
    rw [lt_iff_of_rational hl rational_half, not_lt] at hge
    have hrest : 0 ≤ S * (1 - L) := mul_nonneg hS.1 (by linarith)
    have hrest' : S * (1 - L) ≤ (1 + 6 / 10 ^ 7) * (1 - L) := mul_le_mul_of_nonneg_right hS.2 (by linarith)
    obtain ⟨p, hp, hplow, hphigh⟩ := (isRounding_add hl hs).exists_near (by linarith) (by linarith)
    obtain ⟨q, hq, hqlow, hqhigh⟩ := (isRounding_mul hs hl).exists_near (by linarith) (by linarith)
    obtain ⟨B, hB, hBlow, hBhigh⟩ := (isRounding_sub hp.value hq.value).exists_near (by linarith) (by linarith)
    exact ⟨B, hB.value, by linarith, by linarith, by linarith, by linarith⟩

theorem exists_ends (hs : s.rational? = some S) (hl : l.rational? = some L) (hS : 0 ≤ S ∧ S ≤ 1 + 6 / 10 ^ 7)
    (hL : 0 ≤ L ∧ L ≤ 1) : ∃ A B, (lowerEnd s l).rational? = some A ∧ (upperEnd s l).rational? = some B ∧
      (-3 / 10 ^ 7 - 1 / 2 ^ 44 ≤ A ∧ A ≤ 1 + 3 / 10 ^ 7 + 1 / 2 ^ 44) ∧
      (-3 / 10 ^ 7 - 1 / 2 ^ 44 ≤ B ∧ B ≤ 1 + 3 / 10 ^ 7 + 1 / 2 ^ 44) := by
  obtain ⟨B, hB, hBlow, hBhigh, hlow, hhigh⟩ := exists_upperEnd hs hl hS hL
  obtain ⟨p, hp, hplow, hphigh⟩ := (isRounding_mul (rational_literal 2 (by decide)) hl).exists_near
    (by linarith) (by linarith)
  obtain ⟨A, hA, hAlow, hAhigh⟩ := (isRounding_sub hp.value hB).exists_near (by linarith) (by linarith)
  exact ⟨A, B, hA.value, hB, ⟨by linarith, by linarith⟩, by linarith, by linarith⟩

/-- **The way back**: a saturation and a lightness in range make components in range. -/
theorem toRgb_within {c : Rgb} (hh : h.rational? = some H) (hs : s.rational? = some S) (hl : l.rational? = some L)
    (hH : 0 ≤ H ∧ H ≤ 2) (hS : 0 ≤ S ∧ S ≤ 1 + 6 / 10 ^ 7) (hL : 0 ≤ L ∧ L ≤ 1) (hc : toRgb ⟨h, s, l⟩ = .ok c) :
    c.Within (-1 / 2 ^ 21) (1 + 1 / 2 ^ 21) := by
  obtain ⟨A, B, hA, hB, hAmem, hBmem⟩ := exists_ends hs hl hS hL
  obtain ⟨t, ht, htlow, hthigh⟩ := (isRounding_ofFraction 1 (by decide : 0 < 3)).exists_near (by norm_num) (by norm_num)
  push_cast at htlow hthigh
  obtain ⟨p, hp, hplow, hphigh⟩ := (isRounding_add hh ht.value).exists_near (by linarith) (by linarith)
  obtain ⟨q, hq, hqlow, hqhigh⟩ := (isRounding_sub hh ht.value).exists_near (by linarith) (by linarith)
  have hcomponent : ∀ {t T}, t.rational? = some T → -1 ≤ T ∧ T ≤ 3 →
      ∃ V, (component (lowerEnd s l) (upperEnd s l) t).rational? = some V ∧ -1 / 2 ^ 21 ≤ V ∧ V ≤ 1 + 1 / 2 ^ 21 := by
    intro t T ht hT
    obtain ⟨V, hV, hVlow, hVhigh⟩ := exists_component hA hB ht hAmem hBmem (by norm_num) (by norm_num) hT
    exact ⟨V, hV, by linarith, by linarith⟩
  rw [toRgb_eq] at hc
  split_ifs at hc
  · cases hc
    simpa [Rgb.Within, Rgb.channels, hl] using ⟨by linarith, by linarith⟩
  · cases hc
    simp only [Rgb.Within, Rgb.channels, List.forall_mem_cons]
    exact ⟨hcomponent hp.value ⟨by linarith, by linarith⟩, hcomponent hh ⟨by linarith, by linarith⟩,
      hcomponent hq.value ⟨by linarith, by linarith⟩, by simp⟩

end Hsl

end PlaneSketch
