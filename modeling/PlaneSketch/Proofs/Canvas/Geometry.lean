import PlaneSketch.Proofs.Canvas.Clearing
import PlaneSketch.Proofs.Number.Rational
import PlaneSketch.Proofs.Transform.Exact

/-!
# Where things are drawn

With lengths and coordinates in rational numbers, a drawing area of width `w` and height `h` inside a padding `p`
takes a point `(x, y)` to the pixel coordinates `(p + (x + 1) * w / 2, p + (1 - y) * h / 2)`, on the least surface
that holds the area with its padding on every side. A canvas does the same in double precision and rounds the
result to single precision.

* `Area.make_exact`: areas of positive width and height show everything where it belongs.
* `Canvas.drawPath_eq_strokes`: a canvas strokes what its area shows.
* `Canvas.exists_rational_of_make`: what a canvas was made from has exact values of the right signs.
* `pixel_geometry`: all of it together.
-/

namespace PlaneSketch

/-- Lengths and coordinates in rational numbers. -/
instance : Measure ℚ ℚ := ⟨fun x => 2 * x, fun x y => .ok (x + y), fun x => .ok ⌈x⌉, .ok⟩

/-! ### Areas in any arithmetic -/

namespace Area

/-- The polylines that drawing a path makes: one through all of its points, or none if there are fewer than two. -/
def pathStrokes {K : Type} [Zero K] [One K] [BEq K] [Add K] [Mul K] [Reported K] (a : Area K)
    (p : Path K) :
    Except Fault (List (List (Point K))) :=
  (a.pathPixels p).map fun points => if points.length < 2 then [] else [points]

/-- What an area of width `w` and height `h` inside a padding `p` is to show, and on which surface. -/
structure Shows (a : Area ℚ) (w h p : ℚ) : Prop where
  width_isLeast : IsLeast {n : ℤ | w + 2 * p ≤ n} a.size.width
  height_isLeast : IsLeast {n : ℤ | h + 2 * p ≤ n} a.size.height
  pathStrokes_eq : ∀ (path : Path ℚ) (t : Transform ℚ), path.transform = some t →
    a.pathStrokes path = .ok (if path.points.length < 2 then [] else
      [path.points.map fun v => ⟨p + ((t.apply v).x + 1) * w / 2, p + (1 - (t.apply v).y) * h / 2⟩])
  axisStrokes_eq :
    a.axisStrokes = [[⟨p, p + h / 2⟩, ⟨p + w, p + h / 2⟩], [⟨p + w / 2, p + h⟩, ⟨p + w / 2, p⟩]]

end Area

/-! ### Areas in rational numbers -/

theorem isLeast_toNat_ceil {x : ℚ} (hx : 0 ≤ x) : IsLeast {n : ℤ | x ≤ n} (⌈x⌉.toNat : ℤ) := by
  rw [Int.toNat_of_nonneg (Int.ceil_nonneg hx)]
  exact ⟨Int.le_ceil x, fun n hn => Int.ceil_le.mpr hn⟩

/-- The map of the drawing area to pixels: a flip and stretch, then the shift to the centre, then the padding. -/
def Transform.exactViewport (w h p : ℚ) : Transform ℚ :=
  translation p p * (translation (w / 2) (h / 2) * scaling (w / 2) (-(h / 2)))

theorem Transform.paddedViewport_eq_ok (w h p : ℚ) : paddedViewport w h p = .ok (exactViewport w h p) := by
  have hviewport : viewport w h = .ok (translation (w / 2) (h / 2) * scaling (w / 2) (-(h / 2))) := after_eq_ok _ _
  rw [paddedViewport, hviewport]
  exact after_eq_ok _ _

theorem Transform.exactViewport_apply (w h p : ℚ) (v : Point ℚ) :
    (exactViewport w h p).apply v = ⟨p + (v.x + 1) * w / 2, p + (1 - v.y) * h / 2⟩ := by
  rw [exactViewport, apply_mul, apply_mul, apply_scaling, apply_translation, apply_translation]
  simp only [Point.mk.injEq]
  constructor <;> ring

namespace Area

theorem make_eq_ok (w h p : ℚ) :
    make w h p = .ok ⟨⟨⌈w + 2 * p⌉.toNat, ⌈h + 2 * p⌉.toNat⟩, Transform.exactViewport w h p⟩ := by
  show (Transform.paddedViewport w h p >>= fun viewport =>
    Except.ok (⟨⟨⌈w + 2 * p⌉.toNat, ⌈h + 2 * p⌉.toNat⟩, viewport⟩ : Area ℚ)) = _
  rw [Transform.paddedViewport_eq_ok]
  rfl

theorem pathPixels_exact (a : Area ℚ) {path : Path ℚ} {t : Transform ℚ} (ht : path.transform = some t) :
    a.pathPixels path = .ok (path.points.map fun v => a.viewport.apply (t.apply v)) := by
  have hcompose : Transform.compose t a.viewport = .ok (a.viewport * t) := Transform.after_eq_ok _ _
  simp only [pathPixels, Path.transformedPoints, Path.transformFor, ht, bind, Except.bind, hcompose,
    Transform.applyAll_eq_map mul_comm, funext (Transform.apply_mul a.viewport t)]

theorem make_exact {w h p : ℚ} (hw : 0 < w) (hh : 0 < h) (hp : 0 ≤ p) : ∃ a, make w h p = .ok a ∧ a.Shows w h p := by
  refine ⟨_, make_eq_ok w h p, ?_⟩
  exact {
    width_isLeast := isLeast_toNat_ceil (by linarith)
    height_isLeast := isLeast_toNat_ceil (by linarith)
    pathStrokes_eq := by
      intro path t ht
      rw [pathStrokes, pathPixels_exact _ ht]
      simp only [Except.map, List.length_map, Transform.exactViewport_apply]
    axisStrokes_eq := by
      simp only [axisStrokes, xAxisPixels, yAxisPixels, Transform.applyAll_eq_map mul_comm, List.map_cons,
        List.map_nil, Transform.exactViewport_apply]
      norm_num }

end Area

/-! ### Canvases -/

theorem Area.exists_rational_of_extent {side padding : Number} {pixels : Nat}
    (hextent : extent side padding = .ok pixels) :
    (∃ q, side.rational? = some q) ∧ ∃ q, padding.rational? = some q := by
  unfold extent at hextent
  obtain ⟨length, hadd, hrest⟩ := exists_of_bind_eq_ok hextent
  obtain ⟨i, hceiling, -⟩ := exists_of_bind_eq_ok hrest
  obtain ⟨hside, q, hdouble⟩ := Number.exists_rational_of_ceiling_add hadd hceiling
  exact ⟨hside, Number.exists_rational_of_double hdouble⟩

/-- The sides of an area and its padding have exact values. -/
theorem Area.exists_rational_of_make {m n padding : Number} {a : Area Binary64} (harea : make m n padding = .ok a) :
    (∃ w, m.rational? = some w) ∧ (∃ h, n.rational? = some h) ∧ ∃ p, padding.rational? = some p := by
  obtain ⟨-, -, -, hcolumns, hrows, -⟩ := make_eq_ok_iff_parts.mp harea
  exact ⟨(exists_rational_of_extent hcolumns).1, exists_rational_of_extent hrows⟩

theorem Parameters.checked_eq_ok_iff {p : Parameters} :
    p.checked = .ok p ↔ p.padding.isBelowZero = false ∧ p.lineWidth.isAtMostZero = false := by
  rw [checked]
  cases p.padding.isBelowZero <;> cases p.lineWidth.isAtMostZero <;> simp

theorem Parameters.isBelowZero_of_checked {parameters : Parameters}
    (hchecked : parameters.checked = .ok parameters) : parameters.padding.isBelowZero = false :=
  (checked_eq_ok_iff.mp hchecked).1

theorem Parameters.checked_default : ({} : Parameters).checked = .ok {} :=
  checked_eq_ok_iff.mpr ⟨by decide +kernel, by decide +kernel⟩

namespace Canvas

/-- A canvas strokes what its area shows. -/
theorem drawPath_eq_strokes (c : Canvas) (p : Path Binary64) :
    c.drawPath p = .ofExcept (c.paint p.color) fun paint =>
      .ofExcept (c.area.pathStrokes p) fun strokes => ⟨strokes.map (Call.stroke paint), none⟩ := by
  unfold drawPath Area.pathStrokes
  cases c.paint p.color with
  | error fault => rfl
  | ok paint =>
    cases c.area.pathPixels p with
    | error fault => rfl
    | ok points =>
      simp only [Trace.ofExcept, Except.map, polyline_eq]
      split <;> rfl

/-- What a canvas was made from has exact values, of which those of the sides are positive. -/
theorem exists_rational_of_make {surfaces : SurfaceMaker} {resolution : List Number} {parameters : Parameters}
    {c : Canvas} {calls : List Call} (hchecked : parameters.checked = .ok parameters)
    (hmake : make surfaces resolution parameters = .ok (c, calls)) :
    ∃ m n w h p, resolution = [m, n] ∧ m.rational? = some w ∧ n.rational? = some h ∧
      parameters.padding.rational? = some p ∧ 0 < w ∧ 0 < h ∧ 0 ≤ p ∧
      Area.make m n parameters.padding = .ok c.area := by
  obtain ⟨m, n, area, rfl, hm, hn, harea, -, rfl, -⟩ := make_eq_ok_iff.mp hmake
  obtain ⟨⟨w, hw⟩, ⟨h, hh⟩, p, hp⟩ := Area.exists_rational_of_make harea
  have hpadding : ¬ p < 0 := by
    rw [← Number.isBelowZero_iff hp, Parameters.isBelowZero_of_checked hchecked]
    exact Bool.false_ne_true
  exact ⟨m, n, w, h, p, rfl, hw, hh, hp, (Number.isPositive_iff hw).mp hm, (Number.isPositive_iff hh).mp hn,
    not_lt.mp hpadding, harea⟩

end Canvas

/-- **Where things are drawn**: an area of positive sides shows every path and both axes where they belong, on the
least surface. The sides and the padding that a canvas was made from have such values, and the canvas strokes what
its area, computed in double precision, shows. -/
theorem pixel_geometry :
    (∀ w h p : ℚ, 0 < w → 0 < h → 0 ≤ p → ∃ a, Area.make w h p = .ok a ∧ a.Shows w h p) ∧
    ∀ surfaces resolution parameters c calls, Parameters.checked parameters = .ok parameters →
      Canvas.make surfaces resolution parameters = .ok (c, calls) →
      ∃ m n w h p, resolution = [m, n] ∧ m.rational? = some w ∧ n.rational? = some h ∧
        parameters.padding.rational? = some p ∧ (∃ a, Area.make w h p = .ok a ∧ a.Shows w h p) ∧
        Area.make m n parameters.padding = .ok c.area ∧
        (∀ path, c.drawPath path = .ofExcept (c.paint path.color) fun paint =>
          .ofExcept (c.area.pathStrokes path) fun strokes => ⟨strokes.map (Call.stroke paint), none⟩) ∧
        c.drawAxes = .ofExcept (c.paint c.parameters.axesColor) fun paint =>
          ⟨c.area.axisStrokes.map (Call.stroke paint), none⟩ := by
  refine ⟨fun w h p hw hh hp => Area.make_exact hw hh hp, ?_⟩
  intro surfaces resolution parameters c calls hchecked hmake
  obtain ⟨m, n, w, h, p, hresolution, hm, hn, hpadding, hw, hh, hp, harea⟩ :=
    Canvas.exists_rational_of_make hchecked hmake
  exact ⟨m, n, w, h, p, hresolution, hm, hn, hpadding, Area.make_exact hw hh hp, harea, c.drawPath_eq_strokes,
    c.drawAxes_eq⟩

/-- A diagonal on an area with a side and a padding that are not whole, and a plain canvas. -/
theorem diagonal_of_odd_area :
    (∃ a : Area ℚ, Area.make (601 / 2 : ℚ) 400 (1 / 4) = .ok a ∧ a.size = ⟨301, 401⟩ ∧
      a.pathStrokes ⟨[⟨-1, -1⟩, ⟨1, 1⟩], some 1, .black⟩ = .ok [[⟨1 / 4, 1601 / 4⟩, ⟨1203 / 4, 1 / 4⟩]]) ∧
    ∃ c calls, Canvas.make .wordSized [.int 600, .int 600] = .ok (c, calls) ∧
      Area.make (Number.int 600) (.int 600) (.int 100) = .ok c.area := by
  obtain ⟨hexact, hcanvas⟩ := pixel_geometry
  constructor
  · obtain ⟨a, hmake, hshows⟩ := hexact (601 / 2) 400 (1 / 4) (by norm_num) (by norm_num) (by norm_num)
    refine ⟨a, hmake, ?_, ?_⟩
    · have hwidth : ⌈(601 / 2 + 2 * (1 / 4) : ℚ)⌉ = 301 := by norm_num
      have hheight : ⌈(400 + 2 * (1 / 4) : ℚ)⌉ = 401 := by norm_num
      cases (Area.make_eq_ok _ _ _).symm.trans hmake
      rw [hwidth, hheight]
      rfl
    · rw [hshows.pathStrokes_eq _ 1 rfl]
      norm_num [Transform.apply_one]
  · obtain ⟨c, calls, hmake, -⟩ := exists_plain_canvas
    obtain ⟨m, n, w, h, p, hresolution, -, -, -, -, harea, -⟩ := hcanvas _ _ _ c calls Parameters.checked_default hmake
    cases hresolution
    exact ⟨c, calls, hmake, harea⟩

end PlaneSketch
