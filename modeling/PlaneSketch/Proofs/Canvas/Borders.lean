import PlaneSketch.Proofs.Binary64.Corner
import PlaneSketch.Proofs.Canvas.Geometry
import PlaneSketch.Proofs.Number.Lengths
import PlaneSketch.Proofs.Transform.Viewport

/-!
# The borders of the surface

A surface has the least whole number of pixels that holds a side of the drawing area with its padding, as far as double
precision can tell. The drawing area stays on it all the same: along each axis the viewport rounds to points between
zero and the corner, and the corner fits the pixels that were taken.

* `Area.exists_counts_of_extent`: the pixels that are taken for a side.
* `HalfAndMiddle.coordinate`: one axis of the viewport.
* `Canvas.viewport_on_surface`: the viewport of every canvas.
-/

namespace PlaneSketch

open Binary64

namespace Area

variable {side padding : Number} {x y : Binary64} {k : ℕ}

/-- Whole lengths are added without rounding, as long as there is a surface of that length. -/
theorem round_whole_length {m p : ℕ} (hlt : m + 2 * p < 2 ^ 31) :
    Precision.double.round (Precision.double.round (m * unitsPerOne) 1 +
      2 * Precision.double.round (p * unitsPerOne) 1) 1 = (m + 2 * p) * unitsPerOne := by
  have hround : ∀ {j : ℕ}, j < 2 ^ 31 → Precision.double.round (j * unitsPerOne) 1 = j * unitsPerOne := fun hj =>
    Precision.double.round_of_aligned (fitsDouble_mul_unitsPerOne hj).aligned
  rw [hround (by omega), hround (by omega), ← Nat.mul_assoc, ← Nat.add_mul, hround hlt]

/-- The rounded length of a side with its padding fits the pixels that are taken for it. -/
theorem exists_counts_of_extent (hside : side.isBelowZero = false) (hpadding : padding.isBelowZero = false)
    (hx : side.toBinary64? = some x) (hy : padding.toBinary64? = some y) (hextent : extent side padding = .ok k)
    (hk : k < 2 ^ 31) : ∃ s p : ℕ, Counts x s ∧ Counts y p ∧
      Precision.double.round (s + 2 * p) 1 ≤ k * unitsPerOne := by
  unfold extent at hextent
  obtain ⟨length, hadd, hrest⟩ := exists_of_bind_eq_ok hextent
  obtain ⟨i, hceiling, hsize⟩ := exists_of_bind_eq_ok hrest
  have hsize : i.toNat = k := Except.ok.inj hsize
  rcases Number.cases_of_add hadd with ⟨a, b, rfl, hb⟩ | ⟨z, w, hz, hw, rfl⟩
  · -- whole numbers are added exactly
    obtain ⟨m, rfl⟩ := Number.exists_natCast_of_not_isBelowZero hside
    cases padding with
    | real z => cases hb
    | int j =>
      obtain ⟨p, rfl⟩ := Number.exists_natCast_of_not_isBelowZero hpadding
      obtain rfl : (2 * p : ℤ) = b := Number.int.inj hb
      obtain rfl : Number.int (m + 2 * p) = length := Except.ok.inj hadd
      obtain rfl : (m + 2 * p : ℤ) = i := Except.ok.inj hceiling
      obtain rfl : m + 2 * p = k := by omega
      exact ⟨_, _, Number.counts_of_natCast hx, Number.counts_of_natCast hy, (round_whole_length hk).le⟩
  · -- otherwise the length is a rounded sum
    have hsum := Number.isFinite_of_ceiling hceiling
    obtain rfl : x = z := Option.some.inj (hx.symm.trans hz)
    obtain ⟨s, p, hs, hp, hlength⟩ := Number.counts_add_double hside hpadding hx hy hw hsum
    have hle := Number.le_ceiling hlength hceiling
    refine ⟨s, p, hs, hp, ?_⟩
    have hunits : (0 : ℤ) ≤ unitsPerOne := Int.natCast_nonneg _
    have hik : i * unitsPerOne ≤ k * unitsPerOne := Int.mul_le_mul_of_nonneg_right (by omega) hunits
    exact_mod_cast hle.trans hik

end Area

/-! ### One axis of the viewport -/

/-- `r` units are half of a side, `m` units the middle of the side inside its padding, and both fit the `k` pixels that
are taken for them. -/
structure HalfAndMiddle (side padding : Binary64) (k r m : ℕ) : Prop where
  half : Counts (side / 2) r
  middle : Counts (side / 2 + padding) m
  half_le : r ≤ m
  corner_le : Precision.double.round (r + m) 1 ≤ k * unitsPerOne
  pixels_lt : k < 2 ^ 31

theorem exists_halfAndMiddle {side padding : Number} {x y : Binary64} {k : ℕ} (hside : side.isBelowZero = false)
    (hpadding : padding.isBelowZero = false) (hx : side.toBinary64? = some x) (hy : padding.toBinary64? = some y)
    (hextent : Area.extent side padding = .ok k) (hk : k < 2 ^ 31) :
    y.isFinite = true ∧ ∃ r m, HalfAndMiddle x y k r m := by
  obtain ⟨s, p, hs, hp, hlength⟩ := Area.exists_counts_of_extent hside hpadding hx hy hextent hk
  have hsfits : FitsDouble s := hs.fits
  have hpfits : FitsDouble p := hp.fits
  -- the half, the middle and their sum are rounded one after another, and the sum is the corner
  have hcorner := round_corner_le hsfits.aligned hpfits.aligned hlength
  have hhalf := hs.half
  have hhalffits : FitsDouble (Precision.double.round s 2) := hhalf.fits
  have hle : Precision.double.round s 2 ≤ Precision.double.round (Precision.double.round s 2 + p) 1 :=
    le_round_add hhalffits.aligned
  have hmiddle : Counts (x / 2 + y) (Precision.double.round (Precision.double.round s 2 + p) 1 : ℕ) := by
    have hunits : sumUnits (Precision.double.round s 2 : ℕ) p =
        (Precision.double.round (Precision.double.round s 2 + p) 1 : ℕ) := by
      rw [sumUnits, ← Nat.cast_add, onMagnitude_natCast]
    rw [← hunits]
    -- the middle is in range because the corner behind it is
    refine hhalf.add hp ((hhalf.isFinite_add_iff hp).mpr ?_)
    rw [hunits, Int.natAbs_natCast]
    calc Precision.double.round (Precision.double.round s 2 + p) 1
        ≤ k * unitsPerOne := (le_round_add' (Precision.double.round_aligned _ _)).trans hcorner
      _ < Precision.double.limit := (fitsDouble_mul_unitsPerOne hk).below
  exact ⟨hp.isFinite, _, _, hhalf, hmiddle, hle, hcorner, hk⟩

namespace HalfAndMiddle

variable {side padding a z : Binary64} {k r m : ℕ} {α u : ℤ}

/-- A coordinate between `-1` and `1` is taken to the `k` pixels, forwards or backwards. -/
theorem coordinate (h : HalfAndMiddle side padding k r m) (ha : Counts a α) (hα : α.natAbs = r) (hz : Counts z u)
    (hu : u.natAbs ≤ unitsPerOne) :
    Counts (0 + a * z + (side / 2 + padding)) (sumUnits (productUnits α u) m) ∧
      0 ≤ sumUnits (productUnits α u) m ∧ sumUnits (productUnits α u) m ≤ k * unitsPerOne := by
  have hfits : FitsDouble r := h.half.fits
  have hlt : Precision.double.round (r + m) 1 < Precision.double.limit :=
    h.corner_le.trans_lt (fitsDouble_mul_unitsPerOne h.pixels_lt).below
  obtain ⟨hcount, hlow, hhigh⟩ := counts_coordinate ha hz h.middle hfits.aligned hα.le hu h.half_le hlt
  exact ⟨hcount, hlow, hhigh.trans (by exact_mod_cast h.corner_le)⟩

end HalfAndMiddle

/-! ### Points between the borders -/

/-- A coordinate of the drawing area. -/
def IsNormalized (x : Binary64) : Prop := -1 ≤ x ∧ x ≤ 1

theorem IsNormalized.exists_counts {x : Binary64} (hx : IsNormalized x) :
    ∃ u, Counts x u ∧ u.natAbs ≤ unitsPerOne := by
  obtain ⟨u, hu, hlow, hhigh⟩ := counts_one.neg.exists_of_between counts_one hx.1 hx.2
  exact ⟨u, hu, by omega⟩

/-- The point has exact coordinates that do not leave the surface. -/
def Size.Holds (size : Size) (v : Point Binary64) : Prop :=
  ∃ p q : ℚ, v.x.rational? = some p ∧ v.y.rational? = some q ∧ (0 ≤ p ∧ p ≤ size.width) ∧ 0 ≤ q ∧ q ≤ size.height

theorem rational_mem_of_counts {x : Binary64} {u : ℤ} {k : ℕ} (hx : Counts x u) (hlow : 0 ≤ u)
    (hhigh : u ≤ k * unitsPerOne) : ∃ q : ℚ, x.rational? = some q ∧ 0 ≤ q ∧ q ≤ k := by
  have hunits := cast_unitsPerOne_pos
  refine ⟨_, hx.rational, div_nonneg (by exact_mod_cast hlow) hunits.le, ?_⟩
  rw [div_le_iff₀ hunits]
  exact_mod_cast hhigh

namespace Canvas

variable {surfaces : SurfaceMaker} {resolution : List Number} {parameters : Parameters} {c : Canvas}
  {calls : List Call}

/-- The viewport of a canvas, axis by axis. -/
theorem exists_axes_of_make (hchecked : parameters.checked = .ok parameters)
    (hmake : make surfaces resolution parameters = .ok (c, calls)) :
    ∃ w h p : Binary64, (∃ r m, HalfAndMiddle w p c.area.size.width r m) ∧
      (∃ r m, HalfAndMiddle h p c.area.size.height r m) ∧
      ∀ v : Point Binary64, v.x.isFinite = true → v.y.isFinite = true →
        c.area.viewport.apply v = ⟨0 + w / 2 * v.x + (w / 2 + p), 0 + -(h / 2) * v.y + (h / 2 + p)⟩ := by
  have hpadding := Parameters.isBelowZero_of_checked hchecked
  obtain ⟨m, n, area, rfl, hm, hn, harea, hsurface, rfl, -⟩ := make_eq_ok_iff.mp hmake
  -- the bound on the surface comes from the library alone, since the sides themselves have none
  obtain ⟨hwidth, hheight⟩ := surfaces.side_lt area.size hsurface
  obtain ⟨w, h, p, hcolumns, hrows, -, hw, hh, hp, hviewport⟩ := Area.make_eq_ok_iff_parts.mp harea
  have hw : m.toBinary64? = some w := Number.toBinary64_eq_ok_iff.mp hw
  have hh : n.toBinary64? = some h := Number.toBinary64_eq_ok_iff.mp hh
  have hp : parameters.padding.toBinary64? = some p := Number.toBinary64_eq_ok_iff.mp hp
  have hm := Number.isBelowZero_eq_false_of_isPositive hm
  have hn := Number.isBelowZero_eq_false_of_isPositive hn
  obtain ⟨hpfin, hx⟩ := exists_halfAndMiddle hm hpadding hw hp hcolumns hwidth
  obtain ⟨-, hy⟩ := exists_halfAndMiddle hn hpadding hh hp hrows hheight
  exact ⟨w, h, p, hx, hy, fun v hvx hvy => Transform.apply_paddedViewport hpfin hviewport hvx hvy⟩

/-- **Inside the surface.** Whatever the sides and the padding of a canvas are, the drawing area does not leave the
surface, rounding included. The first pixel coordinate never falls as the
first coordinate of the point grows and depends on nothing else; the second never rises as the second one grows and
depends on nothing else. -/
theorem viewport_on_surface (hchecked : parameters.checked = .ok parameters)
    (hmake : make surfaces resolution parameters = .ok (c, calls)) :
    (∀ x y, IsNormalized x → IsNormalized y → c.area.size.Holds (c.area.viewport.apply ⟨x, y⟩)) ∧
      (∀ x x' y, IsNormalized x → IsNormalized x' → IsNormalized y →
        (x ≤ x' → (c.area.viewport.apply ⟨x, y⟩).x ≤ (c.area.viewport.apply ⟨x', y⟩).x) ∧
          (c.area.viewport.apply ⟨x, y⟩).y = (c.area.viewport.apply ⟨x', y⟩).y) ∧
      ∀ x y y', IsNormalized x → IsNormalized y → IsNormalized y' →
        (y ≤ y' → (c.area.viewport.apply ⟨x, y'⟩).y ≤ (c.area.viewport.apply ⟨x, y⟩).y) ∧
          (c.area.viewport.apply ⟨x, y⟩).x = (c.area.viewport.apply ⟨x, y'⟩).x := by
  obtain ⟨w, h, p, ⟨r, m, hw⟩, ⟨s, k, hh⟩, happly⟩ :=
    exists_axes_of_make hchecked hmake
  -- the second axis runs downwards: the same half, taken backwards
  have hback : Counts (-(h / 2)) (-s) := hh.half.neg
  have hmap : ∀ x y, IsNormalized x → IsNormalized y → c.area.viewport.apply ⟨x, y⟩ =
      ⟨0 + w / 2 * x + (w / 2 + p), 0 + -(h / 2) * y + (h / 2 + p)⟩ := by
    intro x y hx hy
    obtain ⟨u, hu, -⟩ := hx.exists_counts
    obtain ⟨v, hv, -⟩ := hy.exists_counts
    exact happly ⟨x, y⟩ hu.isFinite hv.isFinite
  refine ⟨?_, ?_, ?_⟩
  · intro x y hx hy
    obtain ⟨u, hu, hu1⟩ := hx.exists_counts
    obtain ⟨v, hv, hv1⟩ := hy.exists_counts
    obtain ⟨hxcount, hxlow, hxhigh⟩ := hw.coordinate hw.half (Int.natAbs_natCast r) hu hu1
    obtain ⟨hycount, hylow, hyhigh⟩ := hh.coordinate hback (by omega) hv hv1
    obtain ⟨q, hq, hqmem⟩ := rational_mem_of_counts hxcount hxlow hxhigh
    obtain ⟨q', hq', hqmem'⟩ := rational_mem_of_counts hycount hylow hyhigh
    rw [hmap x y hx hy]
    exact ⟨q, q', hq, hq', hqmem, hqmem'⟩
  · intro x x' y hx hx' hy
    rw [hmap x y hx hy, hmap x' y hx' hy]
    refine ⟨fun hle => ?_, rfl⟩
    obtain ⟨u, hu, hu1⟩ := hx.exists_counts
    obtain ⟨u', hu', hu1'⟩ := hx'.exists_counts
    -- both images are counted in units, and there rounding keeps the order of the exact products
    rw [(hw.coordinate hw.half (Int.natAbs_natCast r) hu hu1).1.le_iff
      (hw.coordinate hw.half (Int.natAbs_natCast r) hu' hu1').1]
    refine sumUnits_mono (productUnits_mono ?_) _
    exact Int.mul_le_mul_of_nonneg_left ((hu.le_iff hu').mp hle) (Int.natCast_nonneg r)
  · intro x y y' hx hy hy'
    rw [hmap x y hx hy, hmap x y' hx hy']
    refine ⟨fun hle => ?_, rfl⟩
    obtain ⟨v, hv, hv1⟩ := hy.exists_counts
    obtain ⟨v', hv', hv1'⟩ := hy'.exists_counts
    rw [(hh.coordinate hback (by omega) hv' hv1').1.le_iff (hh.coordinate hback (by omega) hv hv1).1]
    -- the factor is negative here, so the order of the products turns round
    refine sumUnits_mono (productUnits_mono ?_) _
    exact Int.mul_le_mul_of_nonpos_left (neg_nonpos.mpr (Int.natCast_nonneg s)) ((hv.le_iff hv').mp hle)

/-- The lower right corner of an area with a side and a padding that are not whole. -/
theorem corner_of_odd_area :
    ∃ c calls,
      make .wordSized [.real (ofFraction 601 2), .int 400] { padding := .real (ofFraction 1 4) } = .ok (c, calls) ∧
      c.area.size = ⟨301, 401⟩ ∧ c.area.size.Holds (c.area.viewport.apply ⟨1, -1⟩) ∧
      (c.area.viewport.apply ⟨-1, -1⟩).x ≤ (c.area.viewport.apply ⟨1, -1⟩).x ∧
      (c.area.viewport.apply ⟨1, 1⟩).y ≤ (c.area.viewport.apply ⟨1, -1⟩).y := by
  obtain ⟨⟨c, calls⟩, hmake⟩ : ∃ made,
      make .wordSized [.real (ofFraction 601 2), .int 400] { padding := .real (ofFraction 1 4) } = .ok made :=
    exists_of_isOk (by decide +kernel)
  have hchecked : Parameters.checked { padding := .real (ofFraction 1 4) } =
      .ok { padding := .real (ofFraction 1 4) } := by
    have hpadding : (Number.real (ofFraction 1 4)).isBelowZero = false := by decide +kernel
    have hwidth : (Number.real 1).isAtMostZero = false := by decide +kernel
    simp only [Parameters.checked, hpadding, hwidth, Bool.false_eq_true, if_false]
  have hsize : c.area.size = ⟨301, 401⟩ := by
    obtain ⟨m, n, area, hresolution, -, -, harea, -, rfl, -⟩ := make_eq_ok_iff.mp hmake
    cases hresolution
    obtain ⟨-, -, -, hcolumns, hrows, -⟩ := Area.make_eq_ok_iff_parts.mp harea
    have hwidth : Area.extent (Number.real (ofFraction 601 2)) (.real (ofFraction 1 4)) = .ok 301 := by decide +kernel
    have hheight : Area.extent (Number.int 400) (.real (ofFraction 1 4)) = .ok 401 := by decide +kernel
    exact congrArg₂ Size.mk (Except.ok.inj (hcolumns.symm.trans hwidth)) (Except.ok.inj (hrows.symm.trans hheight))
  have hone : IsNormalized 1 := ⟨by decide +kernel, by decide +kernel⟩
  have hneg : IsNormalized (-1) := ⟨by decide +kernel, by decide +kernel⟩
  obtain ⟨hholds, hacross, hdown⟩ := viewport_on_surface hchecked hmake
  exact ⟨c, calls, hmake, hsize, hholds 1 (-1) hone hneg,
    (hacross (-1) 1 (-1) hneg hone hneg).1 (by decide +kernel),
    (hdown 1 (-1) 1 hone hneg hone).1 (by decide +kernel)⟩

end Canvas

end PlaneSketch
