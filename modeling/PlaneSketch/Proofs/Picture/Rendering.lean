import Mathlib.Data.List.Sort
import PlaneSketch.Proofs.Canvas.Borders
import PlaneSketch.Proofs.Canvas.Calls
import PlaneSketch.Proofs.Picture.Formats

/-!
# The formats of a picture

The names in a text are looked at before anything is drawn: one that is not known wins over whatever else is wrong.
Where all are known and nothing stands in the way of drawing, the picture is handed out in the formats that are named,
each of them on the whole surface of the canvas.

* `Area.takesPixels_of_make`: the pixels of a surface.
* `Picture.render_of_unknown`, `Picture.render_of_known`: what the names decide.
* `Picture.entries_congr`: nothing but the set of names counts.
-/

namespace PlaneSketch

/-! ### The surface -/

namespace Area

/-- A side takes the least whole number of pixels that is no smaller than the side and twice the padding, added up
as numbers of their kind are. -/
def TakesPixels (side padding : Number) (k : ℕ) : Prop :=
  ∃ length q, side.add padding.double = .ok length ∧ length.rational? = some q ∧ (k : ℤ) = ⌈q⌉

variable {side padding : Number} {y : Binary64} {k : ℕ}

/-- A side with its padding is not below zero. -/
theorem rational_nonneg_of_add (hside : side.isBelowZero = false) (hpadding : padding.isBelowZero = false)
    (hy : padding.toBinary64? = some y) {length : Number} {q : ℚ} (hadd : side.add padding.double = .ok length)
    (hq : length.rational? = some q) : 0 ≤ q := by
  rcases Number.cases_of_add hadd with ⟨a, b, rfl, hb⟩ | ⟨x, z, hx, hz, rfl⟩
  · obtain ⟨m, rfl⟩ := Number.exists_natCast_of_not_isBelowZero hside
    cases padding with
    | real z => cases hb
    | int j =>
      obtain ⟨p, rfl⟩ := Number.exists_natCast_of_not_isBelowZero hpadding
      obtain rfl : (2 * p : ℤ) = b := Number.int.inj hb
      obtain rfl : Number.int (m + 2 * p) = length := Except.ok.inj hadd
      obtain rfl : ((m + 2 * p : ℤ) : ℚ) = q := Option.some.inj hq
      positivity
  · have hfin : (x + z).isFinite = true := Binary64.exists_rational_iff.mp ⟨q, hq⟩
    obtain ⟨s, p, -, -, hlength⟩ := Number.counts_add_double hside hpadding hx hy hz hfin
    rw [Number.rational?, hlength.rational, Option.some.injEq] at hq
    rw [← hq]
    positivity

theorem takesPixels_of_extent (hside : side.isBelowZero = false) (hpadding : padding.isBelowZero = false)
    (hy : padding.toBinary64? = some y) (hextent : extent side padding = .ok k) : TakesPixels side padding k := by
  unfold extent at hextent
  obtain ⟨length, hadd, hrest⟩ := exists_of_bind_eq_ok hextent
  obtain ⟨i, hceiling, hsize⟩ := exists_of_bind_eq_ok hrest
  obtain ⟨q, hq, rfl⟩ := Number.ceiling_eq_ok_iff.mp hceiling
  have hnonneg : 0 ≤ ⌈q⌉ := Int.ceil_nonneg (rational_nonneg_of_add hside hpadding hy hadd hq)
  obtain rfl : ⌈q⌉.toNat = k := Except.ok.inj hsize
  exact ⟨length, q, hadd, hq, Int.toNat_of_nonneg hnonneg⟩

theorem TakesPixels.extent_eq (h : TakesPixels side padding k) : extent side padding = .ok k := by
  obtain ⟨length, q, hadd, hq, hk⟩ := h
  have hceiling : length.ceiling = .ok (k : ℤ) := Number.ceiling_eq_ok_iff.mpr ⟨q, hq, hk⟩
  simp only [extent, Measure.plus, Measure.twice, Measure.ceiling, hadd, hceiling, bind, Except.bind, Int.toNat_natCast]

/-- **The surface** of an area with positive sides and a padding that is not below zero. -/
theorem takesPixels_of_make {m n padding : Number} {a : Area Binary64} (hm : m.isPositive = true)
    (hn : n.isPositive = true) (hpadding : padding.isBelowZero = false) (harea : make m n padding = .ok a) :
    TakesPixels m padding a.size.width ∧ TakesPixels n padding a.size.height := by
  obtain ⟨-, -, p, hcolumns, hrows, -, -, -, hp, -⟩ := make_eq_ok_iff_parts.mp harea
  have hp : padding.toBinary64? = some p := Number.toBinary64_eq_ok_iff.mp hp
  exact ⟨takesPixels_of_extent (Number.isBelowZero_eq_false_of_isPositive hm) hpadding hp hcolumns,
    takesPixels_of_extent (Number.isBelowZero_eq_false_of_isPositive hn) hpadding hp hrows⟩

end Area

namespace Picture

open Format

variable {s : String} {ns : List String} {surfaces : SurfaceMaker} {paths : List (Path Binary64)}
  {resolution : List Number} {parameters : Parameters}

/-! ### Drawing -/

/-- Paths without obstacles are drawn on the surface of the canvas. -/
theorem exists_draw {c : Canvas} {calls : List Call}
    (hmake : Canvas.make surfaces resolution parameters = .ok (c, calls)) (hpaths : ∀ p ∈ paths, c.obstacle p = none) :
    ∃ d, draw surfaces paths resolution parameters = .ok d ∧ d.size = c.area.size := by
  have hfirst : c.firstObstacle paths = paths.length := by
    rw [Canvas.firstObstacle, List.findIdx_eq_length]
    simpa using hpaths
  obtain ⟨parts, -, hdraw⟩ := c.draw_eq paths
  rw [hfirst, List.getElem?_eq_none le_rfl, Option.bind_none] at hdraw
  refine ⟨⟨c.area.size, calls ++ parts.flatten⟩, ?_, rfl⟩
  simp only [draw, hmake, hdraw, bind, Except.bind]

/-! ### The names decide -/

/-- Names that are not known are reported, whatever else is given. -/
theorem render_of_unknown (hns : NamesOf s ns) (hunknown : ∃ n ∈ ns, n ∉ known) :
    ∃ unknown, unknown.Pairwise (· < ·) ∧ (∀ n, n ∈ unknown ↔ n ∈ ns ∧ n ∉ known) ∧
      ∀ surfaces paths resolution parameters,
        render surfaces paths resolution parameters s = .error (.unknownFormats unknown) := by
  obtain ⟨unknown, hread, hsorted, hmem⟩ := read_of_unknown hns hunknown
  refine ⟨unknown, hsorted, hmem, fun surfaces paths resolution parameters => ?_⟩
  simp only [render, hread, bind, Except.bind]

/-- Known names fix the formats of whatever is drawn. -/
theorem render_of_known (hns : NamesOf s ns) (hknown : ∀ n ∈ ns, n ∈ known) :
    ∃ fs, (∀ n f, (n, f) ∈ names → (f ∈ fs ↔ n ∈ ns)) ∧ ∀ surfaces paths resolution parameters,
      render surfaces paths resolution parameters s =
        (draw surfaces paths resolution parameters).map (Rendering.mk · fs) := by
  obtain ⟨fs, hread, hmem⟩ := read_of_known hns hknown
  refine ⟨fs, hmem, fun surfaces paths resolution parameters => ?_⟩
  simp only [render, hread, bind, Except.bind]
  cases draw surfaces paths resolution parameters <;> rfl

theorem exists_name (f : Format) : ∃ n, (n, f) ∈ names := by
  cases f with
  | image => exact ⟨"pil", by simp [names]⟩
  | snapshot => exact ⟨"skia", by simp [names]⟩
  | array => exact ⟨"numpy", by simp [names]⟩

/-- Where all names are known and nothing stands in the way of drawing, the picture is handed out in the formats that
are named, and each has the extents of the surface. -/
theorem exists_render (hns : NamesOf s ns) (hknown : ∀ n ∈ ns, n ∈ known) {w h : Number} {c : Canvas}
    {calls : List Call} (hchecked : parameters.checked = .ok parameters)
    (hmake : Canvas.make surfaces [w, h] parameters = .ok (c, calls)) (hpaths : ∀ p ∈ paths, c.obstacle p = none) :
    ∃ r columns rows, render surfaces paths [w, h] parameters s = .ok r ∧
      Area.TakesPixels w parameters.padding columns ∧ Area.TakesPixels h parameters.padding rows ∧
      (∀ n f, (n, f) ∈ names → ((r.entry f).isSome = true ↔ n ∈ ns)) ∧
      (∀ o, r.entry .image = some o ∨ r.entry .snapshot = some o → o.extents = [columns, rows]) ∧
      ∀ o, r.entry .array = some o → o.extents = [rows, columns, 4] := by
  obtain ⟨fs, hfs, hrender⟩ := render_of_known hns hknown
  obtain ⟨d, hdraw, hsize⟩ := exists_draw hmake hpaths
  obtain ⟨hcolumns, hrows⟩ : Area.TakesPixels w parameters.padding c.area.size.width ∧
      Area.TakesPixels h parameters.padding c.area.size.height := by
    obtain ⟨m, n, area, hresolution, hm, hn, harea, -, rfl, -⟩ := Canvas.make_eq_ok_iff.mp hmake
    cases hresolution
    exact Area.takesPixels_of_make hm hn (Parameters.isBelowZero_of_checked hchecked) harea
  rw [← hsize] at hcolumns hrows
  -- the drawing is the same in all formats, and only its form differs
  have hentry : ∀ f o, Rendering.entry ⟨d, fs⟩ f = some o → o = f.output d := by
    intro f o ho
    rw [Rendering.entry, Option.ite_none_right_eq_some] at ho
    exact (Option.some.inj ho.2).symm
  refine ⟨⟨d, fs⟩, _, _, by rw [hrender, hdraw]; rfl, hcolumns, hrows, ?_, ?_, ?_⟩
  · intro n f hnf
    rw [← hfs n f hnf, Rendering.entry]
    split <;> simp_all
  · rintro o (ho | ho)
    · rw [hentry _ o ho]
      rfl
    · rw [hentry _ o ho]
      rfl
  · intro o ho
    rw [hentry _ o ho]
    rfl

/-- **Nothing but the set of names** counts for what is reported and for what is handed out. -/
theorem entries_congr {s' : String} {ns' : List String} (hns : NamesOf s ns) (hns' : NamesOf s' ns')
    (hsame : ∀ n, n ∈ ns ↔ n ∈ ns') (surfaces : SurfaceMaker) (paths : List (Path Binary64))
    (resolution : List Number) (parameters : Parameters) :
    (render surfaces paths resolution parameters s).map Rendering.entry =
      (render surfaces paths resolution parameters s').map Rendering.entry := by
  by_cases hknown : ∀ n ∈ ns, n ∈ known
  · obtain ⟨fs, hfs, hrender⟩ := render_of_known hns hknown
    obtain ⟨fs', hfs', hrender'⟩ := render_of_known hns' fun n hn => hknown n ((hsame n).mpr hn)
    -- each format has a name, so the same names select the same formats
    have hformats : ∀ f, f ∈ fs ↔ f ∈ fs' := by
      intro f
      obtain ⟨n, hnf⟩ := exists_name f
      rw [hfs n f hnf, hfs' n f hnf, hsame]
    rw [hrender, hrender']
    cases draw surfaces paths resolution parameters with
    | error fault => rfl
    | ok d =>
      refine congrArg Except.ok (funext fun f => ?_)
      simp only [Rendering.entry, hformats]
  · obtain ⟨n, hn, hnot⟩ : ∃ n ∈ ns, n ∉ known := by simpa using hknown
    obtain ⟨unknown, hsorted, hmem, hrender⟩ := render_of_unknown hns ⟨n, hn, hnot⟩
    obtain ⟨unknown', hsorted', hmem', hrender'⟩ := render_of_unknown hns' ⟨n, (hsame n).mp hn, hnot⟩
    have hunknown : unknown = unknown' :=
      hsorted.eq_of_mem_iff hsorted' fun n => by rw [hmem, hmem', hsame]
    rw [hrender, hrender', hunknown]

/-- **What is rendered**: every text has its names. If one of them is not known, those that are not are reported in
order, each once, whatever the paths, the resolution and the parameters are. Otherwise rendering fails only where
drawing does; where nothing stands in its way, exactly the formats that are named are handed out, each with the extents
that the resolution and the padding ask for: those of an array count its rows before its columns, and the four channels
of a pixel. Order, repetition and letter case of the names make no difference. -/
theorem render_selects (s : String) :
    ∃ ns, (∀ ns', NamesOf s ns' ↔ ns' = ns) ∧
      ((∃ n ∈ ns, n ∉ known) → ∃ unknown, unknown.Pairwise (· < ·) ∧ (∀ n, n ∈ unknown ↔ n ∈ ns ∧ n ∉ known) ∧
        (Fault.unknownFormats unknown).kind = .value ∧
        (∀ rowText, (Fault.unknownFormats unknown).message? rowText =
          some ("Unknown output format(s): " ++ ", ".intercalate unknown)) ∧
        ∀ surfaces paths resolution parameters,
          render surfaces paths resolution parameters s = .error (.unknownFormats unknown)) ∧
      ((∀ n ∈ ns, n ∈ known) →
        (∀ surfaces paths resolution parameters,
          (render surfaces paths resolution parameters s).map Rendering.drawing =
            draw surfaces paths resolution parameters) ∧
        ∀ surfaces (paths : List (Path Binary64)) (w h : Number) parameters c calls,
          Parameters.checked parameters = .ok parameters →
          Canvas.make surfaces [w, h] parameters = .ok (c, calls) → (∀ p ∈ paths, c.obstacle p = none) →
          ∃ r columns rows, render surfaces paths [w, h] parameters s = .ok r ∧
            Area.TakesPixels w parameters.padding columns ∧ Area.TakesPixels h parameters.padding rows ∧
            (∀ n f, (n, f) ∈ names → ((r.entry f).isSome = true ↔ n ∈ ns)) ∧
            (∀ o, r.entry .image = some o ∨ r.entry .snapshot = some o → o.extents = [columns, rows]) ∧
            ∀ o, r.entry .array = some o → o.extents = [rows, columns, 4]) ∧
      ∀ s' ns', NamesOf s' ns' → (∀ n, n ∈ ns ↔ n ∈ ns') ∨ Text.lower s.toList = Text.lower s'.toList →
        ∀ surfaces paths resolution parameters,
          (render surfaces paths resolution parameters s).map Rendering.entry =
            (render surfaces paths resolution parameters s').map Rendering.entry := by
  have hns : NamesOf s (namesIn s) := namesIn_eq_iff.mp rfl
  refine ⟨namesIn s, fun ns' => namesIn_eq_iff.symm.trans eq_comm, ?_, ?_, ?_⟩
  · intro hunknown
    obtain ⟨unknown, hsorted, hmem, hrender⟩ := render_of_unknown hns hunknown
    exact ⟨unknown, hsorted, hmem, rfl, fun _ => rfl, hrender⟩
  · intro hknown
    refine ⟨fun surfaces paths resolution parameters => ?_,
      fun surfaces paths w h parameters c calls hchecked hmake hpaths =>
        exists_render hns hknown hchecked hmake hpaths⟩
    obtain ⟨fs, -, hrender⟩ := render_of_known hns hknown
    rw [hrender]
    cases draw surfaces paths resolution parameters <;> rfl
  · rintro s' ns' hns' (hsame | hlower) surfaces paths resolution parameters
    · exact entries_congr hns hns' hsame surfaces paths resolution parameters
    · have hnames : ∀ n, n ∈ namesIn s ↔ n ∈ ns' := fun n => by
        rw [namesIn_eq_of_lower_eq hlower, namesIn_eq_iff.mpr hns']
      exact entries_congr hns hns' hnames surfaces paths resolution parameters

/-- Two formats on a surface whose height is rounded up: a blank behind the separator is passed over, one of the names
is given twice and in upper case. -/
theorem render_two_formats :
    ∃ r, render .wordSized [⟨[⟨0, 0⟩, ⟨1, 1⟩], some .identity, .black⟩] [.int 3, .real (.ofFraction 3 2)]
        { padding := .int 1 } "PIL; numpy|pil" = .ok r ∧
      (r.entry .image).isSome = true ∧ (r.entry .array).isSome = true ∧ (r.entry .snapshot).isSome = false ∧
      (∀ o, r.entry .image = some o → o.extents = [5, 4]) ∧ ∀ o, r.entry .array = some o → o.extents = [4, 5, 4] := by
  obtain ⟨⟨c, calls⟩, hmake⟩ : ∃ made,
      Canvas.make .wordSized [.int 3, .real (.ofFraction 3 2)] { padding := .int 1 } = .ok made :=
    exists_of_isOk (by decide +kernel)
  have hchecked : Parameters.checked { padding := .int 1 } = .ok { padding := .int 1 } :=
    Parameters.checked_eq_ok_iff.mpr ⟨by decide +kernel, by decide +kernel⟩
  have hpaths : ∀ p ∈ [(⟨[⟨0, 0⟩, ⟨1, 1⟩], some .identity, .black⟩ : Path Binary64)], c.obstacle p = none := by
    obtain ⟨k, hk⟩ : ∃ k, ColorSpec.black.color = .ok k := exists_of_isOk (by decide +kernel)
    have hparameters : c.parameters = { padding := .int 1 } := Canvas.parameters_of_make hmake
    have hfin : (Transform.identity : Transform Binary64).isFinite = true := by decide +kernel
    intro p hp
    obtain rfl := List.mem_singleton.mp hp
    simp only [Canvas.obstacle, hk, hparameters, Number.toBinary64?, hfin, if_true]
  obtain ⟨ns, hns, -, hknown, -⟩ := render_selects "PIL; numpy|pil"
  have hnames : ["pil", "numpy", "pil"] = ns := (hns _).mp (namesIn_eq_iff.mp (by decide +kernel))
  subst hnames
  obtain ⟨r, columns, rows, hrender, hcolumns, hrows, hentry, himage, harray⟩ :=
    (hknown (by decide)).2 _ _ _ _ _ c calls hchecked hmake hpaths
  have hwidth : Area.extent (Number.int 3) (.int 1) = .ok 5 := by decide +kernel
  have hheight : Area.extent (Number.real (.ofFraction 3 2)) (.int 1) = .ok 4 := by decide +kernel
  obtain rfl : columns = 5 := Except.ok.inj (hcolumns.extent_eq.symm.trans hwidth)
  obtain rfl : rows = 4 := Except.ok.inj (hrows.extent_eq.symm.trans hheight)
  refine ⟨r, hrender, (hentry "pil" .image (by decide)).mpr (by decide),
    (hentry "numpy" .array (by decide)).mpr (by decide), ?_, fun o ho => himage o (.inl ho), harray⟩
  rw [← Bool.not_eq_true, hentry "skia" .snapshot (by decide)]
  decide

end Picture

end PlaneSketch
