import Mathlib.Tactic.NormNum
import PlaneSketch.Color.Hsl
import PlaneSketch.Proofs.Binary64.Enclosure

/-!
# Angles and components

The hue of a colour is never below nought, since each of its parts is a rounded fraction of the spread between zero and
one. At such an angle a component lies between its two ends, up to the errors of a handful of operations.

* `Hsl.exists_wrap`: an angle brought back to the turn.
* `Rgb.exists_huePart`, `Rgb.exists_hue`: the hue.
* `Hsl.exists_component`: a component between its ends.
-/

namespace PlaneSketch

open Binary64

namespace Hsl

/-- An angle from one turn below nought on is brought back to nought or above it. -/
theorem exists_wrap {t : Binary64} {T : ℚ} (ht : t.rational? = some T) (hlow : -1 ≤ T) (hhigh : T ≤ 3) :
    ∃ W, (wrap t).rational? = some W ∧ 0 ≤ W ∧ W ≤ 2 := by
  obtain ⟨U, hU, hU0, hU3⟩ : ∃ U, (if t < 0 then t + 1 else t).rational? = some U ∧ 0 ≤ U ∧ U ≤ 3 := by
    split
    · rename_i hneg
      rw [lt_iff_of_rational ht rational_zero] at hneg
      obtain ⟨U, hU, -⟩ := (isRounding_add ht rational_one).exists_near (by linarith) (by linarith)
      exact ⟨U, hU.value, hU.ge isValue_zero (by linarith), (hU.le isValue_one (by linarith)).trans (by norm_num)⟩
    · rename_i hpos
      rw [lt_iff_of_rational ht rational_zero, not_lt] at hpos
      exact ⟨T, ht, hpos, hhigh⟩
  unfold wrap
  dsimp only
  generalize (if t < 0 then t + 1 else t) = u at hU ⊢
  split
  · rename_i hgt
    rw [lt_iff_of_rational rational_one hU] at hgt
    obtain ⟨W, hW, -⟩ := (isRounding_sub hU rational_one).exists_near (by linarith) (by linarith)
    exact ⟨W, hW.value, hW.ge isValue_zero (by linarith), hW.le isValue_two (by linarith)⟩
  · rename_i hle
    rw [lt_iff_of_rational rational_one hU, not_lt] at hle
    exact ⟨U, hU, hU0, hle.trans (by norm_num)⟩

end Hsl

/-! ### Hue -/

namespace Rgb

/-- How far a component lies below the largest one, as a part of the spread. -/
def huePart (hi diff x : Binary64) : Binary64 := ((hi - x) / 6 + diff / 2) / diff

/-- The hue before it is brought back to the turn. -/
def hueAngle (c : Rgb) (hi diff : Binary64) : Binary64 :=
  if c.red == hi then huePart hi diff c.blue - huePart hi diff c.green
  else if c.green == hi then ofFraction 1 3 + huePart hi diff c.red - huePart hi diff c.blue
  else ofFraction 2 3 + huePart hi diff c.green - huePart hi diff c.red

theorem hue_eq (c : Rgb) (hi diff : Binary64) : c.hue hi diff = Hsl.wrap (c.hueAngle hi diff) := rfl

variable {lo hi diff x : Binary64} {L H D X : ℚ}

/-- The part of a spread that is not too small lies between zero and one. -/
theorem exists_huePart (hhi : hi.rational? = some H) (hx : x.rational? = some X) (hdiff : Rounded diff (H - L) D)
    (hLX : L ≤ X) (hXH : X ≤ H) (hspread : 1 / 2 ^ 22 ≤ D) (hnear : H - L - 1 / 2 ^ 49 ≤ D) (hD : D ≤ 2) :
    ∃ P, (huePart hi diff x).rational? = some P ∧ 0 ≤ P ∧ P ≤ 1 := by
  have hsix := rational_literal 6 (by decide)
  have htwo := rational_literal 2 (by decide)
  -- one enclosure for each operation, in the order in which they are carried out
  obtain ⟨a, ha, -, haX⟩ := (isRounding_sub hhi hx).exists_near (by linarith) (by linarith)
  have ha0 : 0 ≤ a := ha.ge isValue_zero (by linarith)
  obtain ⟨b, hb, -, hba⟩ := (isRounding_div ha.value hsix (by norm_num)).exists_near (by linarith) (by linarith)
  have hb0 : 0 ≤ b := hb.ge isValue_zero (by linarith)
  obtain ⟨c, hc, -, hcD⟩ := (isRounding_div hdiff.value htwo (by norm_num)).exists_near (by linarith) (by linarith)
  have hc0 : 0 ≤ c := hc.ge isValue_zero (by linarith)
  obtain ⟨e, he, -, hebc⟩ := (isRounding_add hb.value hc.value).exists_near (by linarith) (by linarith)
  have he0 : 0 ≤ e := he.ge isValue_zero (by linarith)
  -- a sixth and a half of the spread leave a third of it for the errors
  have hpos : 0 < D := by linarith
  have hlow : 0 ≤ e / D := div_nonneg he0 hpos.le
  have hhigh : e / D ≤ 1 := (div_le_one hpos).mpr (by linarith)
  obtain ⟨P, hP, -⟩ := (isRounding_div he.value hdiff.value hpos.ne').exists_near (by linarith) (by linarith)
  exact ⟨P, hP.value, hP.ge isValue_zero hlow, hP.le isValue_one hhigh⟩

/-- The difference of two parts, from an angle between nought and one. -/
theorem exists_angle {t u v : Binary64} {T U V : ℚ} (ht : t.rational? = some T) (hu : u.rational? = some U)
    (hv : v.rational? = some V) (hT : 0 ≤ T ∧ T ≤ 1) (hU : 0 ≤ U ∧ U ≤ 1) (hV : 0 ≤ V ∧ V ≤ 1) :
    ∃ A, (t + u - v).rational? = some A ∧ -1 ≤ A ∧ A ≤ 3 := by
  obtain ⟨S, hS, -, hSle⟩ := (isRounding_add ht hu).exists_near (by linarith) (by linarith)
  have hS0 : 0 ≤ S := hS.ge isValue_zero (by linarith)
  obtain ⟨A, hA, -, hAle⟩ := (isRounding_sub hS.value hv).exists_near (by linarith) (by linarith)
  exact ⟨A, hA.value, hA.ge isValue_one.neg (by linarith), by linarith⟩

/-- **The hue** of a colour whose components lie between `lo` and `hi`, with a spread that is not too small. -/
theorem exists_hue {c : Rgb} {R G B : ℚ} (hr : c.red.rational? = some R) (hg : c.green.rational? = some G)
    (hb : c.blue.rational? = some B) (hR : L ≤ R ∧ R ≤ H) (hG : L ≤ G ∧ G ≤ H) (hB : L ≤ B ∧ B ≤ H)
    (hhi : hi.rational? = some H) (hdiff : Rounded diff (H - L) D) (hspread : 1 / 2 ^ 22 ≤ D)
    (hnear : H - L - 1 / 2 ^ 49 ≤ D) (hD : D ≤ 2) :
    ∃ W, (c.hue hi diff).rational? = some W ∧ 0 ≤ W ∧ W ≤ 2 := by
  have hpart : ∀ {x X}, x.rational? = some X → L ≤ X ∧ X ≤ H →
      ∃ P, (huePart hi diff x).rational? = some P ∧ 0 ≤ P ∧ P ≤ 1 := fun hx hX =>
    exists_huePart hhi hx hdiff hX.1 hX.2 hspread hnear hD
  have hthird : ∀ k : ℕ, k ≤ 2 → ∃ T, (ofFraction k 3).rational? = some T ∧ 0 ≤ T ∧ T ≤ 1 := by
    intro k hk
    have hk : (k : ℚ) ≤ 2 := by exact_mod_cast hk
    have hk0 : (0 : ℚ) ≤ k := Nat.cast_nonneg k
    obtain ⟨T, hT, -⟩ := (isRounding_ofFraction k (by decide : 0 < 3)).exists_near
      (by push_cast; linarith) (by push_cast; linarith)
    exact ⟨T, hT.value, hT.ge isValue_zero (by push_cast; linarith), hT.le isValue_one (by push_cast; linarith)⟩
  obtain ⟨r, hr, hr01⟩ := hpart hr hR
  obtain ⟨g, hg, hg01⟩ := hpart hg hG
  obtain ⟨b, hb, hb01⟩ := hpart hb hB
  obtain ⟨A, hA, hlow, hhigh⟩ : ∃ A, (c.hueAngle hi diff).rational? = some A ∧ -1 ≤ A ∧ A ≤ 3 := by
    unfold hueAngle
    split
    · obtain ⟨A, hA, -, hAle⟩ := (isRounding_sub hb hg).exists_near (by linarith) (by linarith)
      exact ⟨A, hA.value, hA.ge isValue_one.neg (by linarith), by linarith⟩
    · split
      · obtain ⟨T, hT, hT01⟩ := hthird 1 (by decide)
        exact exists_angle hT hr hb hT01 hr01 hb01
      · obtain ⟨T, hT, hT01⟩ := hthird 2 (by decide)
        exact exists_angle hT hg hr hT01 hg01 hr01
  rw [hue_eq]
  exact Hsl.exists_wrap hA hlow hhigh

end Rgb

/-! ### Components -/

namespace Hsl

/-- A factor between `-a` and `b`, times one between zero and `k`. -/
theorem mul_mem_of_mem {e w a b k : ℚ} (he : -a ≤ e ∧ e ≤ b) (ha : 0 ≤ a) (hb : 0 ≤ b) (hw : 0 ≤ w ∧ w ≤ k) :
    -(a * k) ≤ e * w ∧ e * w ≤ b * k := by
  constructor
  · calc -(a * k) ≤ -(a * w) := neg_le_neg (mul_le_mul_of_nonneg_left hw.2 ha)
      _ = -a * w := (neg_mul a w).symm
      _ ≤ e * w := mul_le_mul_of_nonneg_right he.1 hw.1
  · calc e * w ≤ b * w := mul_le_mul_of_nonneg_right he.2 hw.1
      _ ≤ b * k := mul_le_mul_of_nonneg_left hw.2 hb

variable {v1 v2 w : Binary64} {A B W low high : ℚ}

/-- The rising part of a component. -/
theorem exists_rising (h1 : v1.rational? = some A) (h2 : v2.rational? = some B) (hw : w.rational? = some W)
    (hA : low ≤ A ∧ A ≤ high) (hB : low ≤ B ∧ B ≤ high) (hlow : -1 ≤ low) (hhigh : high ≤ 3 / 2)
    (hW : 0 ≤ W ∧ W ≤ 1 / 6) :
    ∃ V, (v1 + (v2 - v1) * 6 * w).rational? = some V ∧ low - 1 / 2 ^ 40 ≤ V ∧ V ≤ high + 1 / 2 ^ 40 := by
  obtain ⟨d, hd, hdlow, hdhigh⟩ := (isRounding_sub h2 h1).exists_near (by linarith) (by linarith)
  obtain ⟨e, he, helow, hehigh⟩ := (isRounding_mul hd.value (rational_literal 6 (by decide))).exists_near
    (by linarith) (by linarith)
  -- the rise is six times the angle, which is at most a sixth, so that it does not pass the other end
  obtain ⟨hproduct, hproduct'⟩ := mul_mem_of_mem (e := e) (a := 6 * (A - low) + 7 / 2 ^ 49)
    (b := 6 * (high - A) + 7 / 2 ^ 49) ⟨by linarith, by linarith⟩ (by linarith) (by linarith) hW
  obtain ⟨f, hf, hflow, hfhigh⟩ := (isRounding_mul he.value hw).exists_near (by linarith) (by linarith)
  obtain ⟨V, hV, hVlow, hVhigh⟩ := (isRounding_add h1 hf.value).exists_near (by linarith) (by linarith)
  exact ⟨V, hV.value, by linarith, by linarith⟩

/-- The falling part of a component. -/
theorem exists_falling (h1 : v1.rational? = some A) (h2 : v2.rational? = some B) (hw : w.rational? = some W)
    (hA : low ≤ A ∧ A ≤ high) (hB : low ≤ B ∧ B ≤ high) (hlow : -1 ≤ low) (hhigh : high ≤ 3 / 2)
    (hW : 1 / 2 - 1 / 2 ^ 49 ≤ W ∧ W ≤ 2 / 3) :
    ∃ V, (v1 + (v2 - v1) * (ofFraction 2 3 - w) * 6).rational? = some V ∧
      low - 1 / 2 ^ 40 ≤ V ∧ V ≤ high + 1 / 2 ^ 40 := by
  obtain ⟨d, hd, hdlow, hdhigh⟩ := (isRounding_sub h2 h1).exists_near (by linarith) (by linarith)
  obtain ⟨k, hk, -, hkhigh⟩ := (isRounding_ofFraction 2 (by decide : 0 < 3)).exists_near (by norm_num) (by norm_num)
  have hWk : W ≤ k := hk.ge ⟨w, hw⟩ (by push_cast; exact hW.2)
  push_cast at hkhigh
  obtain ⟨f, hf, -, hfhigh⟩ := (isRounding_sub hk.value hw).exists_near (by linarith) (by linarith)
  have hf0 : 0 ≤ f := hf.ge isValue_zero (by linarith)
  obtain ⟨hproduct, hproduct'⟩ := mul_mem_of_mem (e := d) (a := A - low + 1 / 2 ^ 49) (b := high - A + 1 / 2 ^ 49)
    (w := f) (k := 1 / 6 + 3 / 2 ^ 49) ⟨by linarith, by linarith⟩ (by linarith) (by linarith) ⟨hf0, by linarith⟩
  obtain ⟨g, hg, hglow, hghigh⟩ := (isRounding_mul hd.value hf.value).exists_near (by linarith) (by linarith)
  obtain ⟨m, hm, hmlow, hmhigh⟩ := (isRounding_mul hg.value (rational_literal 6 (by decide))).exists_near
    (by linarith) (by linarith)
  obtain ⟨V, hV, hVlow, hVhigh⟩ := (isRounding_add h1 hm.value).exists_near (by linarith) (by linarith)
  exact ⟨V, hV.value, by linarith, by linarith⟩

/-- **A component** lies between its two ends, up to rounding. -/
theorem exists_component {t : Binary64} {T : ℚ} (h1 : v1.rational? = some A) (h2 : v2.rational? = some B)
    (ht : t.rational? = some T) (hA : low ≤ A ∧ A ≤ high) (hB : low ≤ B ∧ B ≤ high) (hlow : -1 ≤ low)
    (hhigh : high ≤ 3 / 2) (hT : -1 ≤ T ∧ T ≤ 3) :
    ∃ V, (component v1 v2 t).rational? = some V ∧ low - 1 / 2 ^ 40 ≤ V ∧ V ≤ high + 1 / 2 ^ 40 := by
  obtain ⟨W, hW, hW0, hW2⟩ := exists_wrap ht hT.1 hT.2
  unfold component
  dsimp only
  generalize wrap t = w at hW ⊢
  -- rounded comparisons of the angle bound the exact one, since the bounds are doubles themselves
  split
  · rename_i hlt
    obtain ⟨m, hm, -⟩ := (isRounding_mul (rational_literal 6 (by decide)) hW).exists_near (by linarith) (by linarith)
    rw [lt_iff_of_rational hm.value rational_one] at hlt
    have hW6 : W ≤ 1 / 6 := by
      by_contra hgt
      exact absurd (hm.ge isValue_one (by linarith)) (by linarith)
    exact exists_rising h1 h2 hW hA hB hlow hhigh ⟨hW0, hW6⟩
  · split
    · exact ⟨B, h2, by linarith, by linarith⟩
    · rename_i hge
      obtain ⟨m, hm, -, hmW⟩ := (isRounding_mul (rational_literal 2 (by decide)) hW).exists_near
        (by linarith) (by linarith)
      rw [lt_iff_of_rational hm.value rational_one, not_lt] at hge
      split
      · rename_i hlt
        obtain ⟨n, hn, -⟩ := (isRounding_mul (rational_literal 3 (by decide)) hW).exists_near
          (by linarith) (by linarith)
        rw [lt_iff_of_rational hn.value (rational_literal 2 (by decide))] at hlt
        have hW3 : W ≤ 2 / 3 := by
          by_contra hgt
          exact absurd (hn.ge isValue_two (by linarith)) (by linarith)
        exact exists_falling h1 h2 hW hA hB hlow hhigh ⟨by linarith, hW3⟩
      · exact ⟨A, h1, by linarith, by linarith⟩

end Hsl

end PlaneSketch
