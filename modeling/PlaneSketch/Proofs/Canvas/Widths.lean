import PlaneSketch.Proofs.Binary64.Narrowing
import PlaneSketch.Proofs.Canvas.Calls
import PlaneSketch.Proofs.Canvas.Geometry

/-!
# The width of strokes

Parameters are refused for a padding below zero and a width at or below zero. That leaves `nan` in both places. A
padding of `nan` is found out when the drawing area is made; the width reaches every stroke, and a paint narrows it to
single precision, where `nan` and the least of the positive doubles become zero.

* `Parameters.checked_iff`: the parameters that are accepted.
* `Canvas.every_step`, `Canvas.every_run`: all strokes of a canvas have the same width.
* `PaintSpec.strokeWidth_toSingle_pos_iff`: the widths that stay positive.
* `Canvas.drawn_widths`: all of it together.
-/

namespace PlaneSketch

open Binary64

/-! ### Accepted parameters -/

namespace Number

variable {n : Number}

/-- Whether the number is at or above zero; `nan` is not. -/
def isAtLeastZero (n : Number) : Bool := n.units?.any fun u => decide (0 ≤ u)

theorem units_eq_none_iff : n.units? = none ↔ n = .real .nan := by
  cases n with
  | int i => simp [units?]
  | real x => cases x <;> simp [units?, Binary64.units?]

theorem isBelowZero_eq_false_iff : n.isBelowZero = false ↔ n.isAtLeastZero = true ∨ n = .real .nan := by
  rw [← units_eq_none_iff, isBelowZero, isAtLeastZero]
  cases n.units? <;> simp

theorem isAtMostZero_eq_false_iff : n.isAtMostZero = false ↔ n.isPositive = true ∨ n = .real .nan := by
  rw [← units_eq_none_iff, isAtMostZero, isPositive]
  cases n.units? <;> simp

end Number

/-- Parameters are accepted unless a comparison with zero speaks against them, which none does for `nan`. -/
theorem Parameters.checked_iff (p : Parameters) :
    p.checked = .ok p ↔ (p.padding.isAtLeastZero = true ∨ p.padding = .real .nan) ∧
      (p.lineWidth.isPositive = true ∨ p.lineWidth = .real .nan) := by
  rw [checked_eq_ok_iff, Number.isBelowZero_eq_false_iff, Number.isAtMostZero_eq_false_iff]

/-! ### Calls of a trace -/

namespace Trace

variable {P : Call → Prop} {t u : Trace}

/-- All calls of a trace are of one kind, also if a fault ended it. -/
def Every (P : Call → Prop) (t : Trace) : Prop := ∀ call ∈ t.calls, P call

theorem every_idle : Every P idle := List.forall_mem_nil P

theorem every_stop (fault : Fault) : Every P (stop fault) := List.forall_mem_nil P

theorem every_call {call : Call} (hcall : P call) : Every P (Trace.call call) := List.forall_mem_singleton.mpr hcall

theorem every_andThen (ht : t.Every P) (hu : u.Every P) : (t.andThen u).Every P := by
  intro call hcall
  rw [calls_andThen, List.mem_append] at hcall
  rcases hcall with hcall | hcall
  · exact ht call hcall
  · split at hcall
    · cases hcall
    · exact hu call hcall

theorem every_ofExcept {α : Type} {x : Except Fault α} {use : α → Trace} (huse : ∀ a, x = .ok a → (use a).Every P) :
    (ofExcept x use).Every P := by
  cases x with
  | error fault => exact every_stop fault
  | ok a => exact huse a rfl

end Trace

/-! ### Strokes of a canvas -/

namespace Canvas

open Trace

variable (c : Canvas)

/-- A call clears, or strokes with the width of the canvas's parameters in single precision. -/
def HasStrokeWidth : Call → Prop
  | .clear _ => True
  | .polyline _ paint =>
    ∃ w, c.parameters.lineWidth.toBinary64? = some w ∧ paint.width = PaintSpec.strokeWidth w.toSingle

variable {c}

theorem every_polyline {color : ColorSpec} {paint : Paint} (hpaint : c.paint color = .ok paint)
    (points : List (Point Binary64)) : (polyline points paint).Every c.HasStrokeWidth := by
  have hwidth : ∃ w, c.parameters.lineWidth.toBinary64? = some w ∧
      paint.width = PaintSpec.strokeWidth w.toSingle := by
    obtain ⟨k, hk, -⟩ := exists_of_bind_eq_ok hpaint
    rw [c.paint_eq hk] at hpaint
    split at hpaint
    · rename_i w hw
      cases hpaint
      exact ⟨w, hw, rfl⟩
    · cases hpaint
  unfold polyline
  split
  · exact every_idle
  · exact every_call hwidth

variable (c)

theorem every_drawAxes : c.drawAxes.Every c.HasStrokeWidth :=
  every_ofExcept fun _ hpaint => every_andThen (every_polyline hpaint _) (every_polyline hpaint _)

theorem every_clear : c.clear.Every c.HasStrokeWidth := by
  refine every_ofExcept fun color _ => every_andThen (every_call trivial) ?_
  split
  · exact c.every_drawAxes
  · exact every_idle

theorem every_drawPath (p : Path Binary64) : (c.drawPath p).Every c.HasStrokeWidth :=
  every_ofExcept fun _ hpaint => every_ofExcept fun points _ => every_polyline hpaint points

theorem every_draw (ps : List (Path Binary64)) : (c.draw ps).Every c.HasStrokeWidth := by
  induction ps with
  | nil => exact every_idle
  | cons p ps ih => exact every_andThen (c.every_drawPath p) ih

/-- Every stroke of a step has the canvas's width. -/
theorem every_step (s : Step) : (c.step s).Every c.HasStrokeWidth := by
  cases s with
  | clear => exact c.every_clear
  | drawAxes => exact c.every_drawAxes
  | drawPath p => exact c.every_drawPath p
  | draw ps => exact c.every_draw ps

variable {c} in
/-- Every stroke of a run has the canvas's width, if the strokes before it have. -/
theorem every_run {calls : List Call} (hcalls : ∀ call ∈ calls, c.HasStrokeWidth call) (steps : List Step) :
    ∀ call ∈ c.run calls steps, c.HasStrokeWidth call := by
  induction steps generalizing calls with
  | nil => exact hcalls
  | cons s steps ih => exact ih (List.forall_mem_append.mpr ⟨hcalls, c.every_step s⟩)

end Canvas

/-! ### Widths in single precision -/

namespace PaintSpec

theorem strokeWidth_eq_of_pos {width : Binary64} (hpos : 0 < width) : strokeWidth width = width := by
  obtain ⟨i, j, hi, hj, hij⟩ := lt_iff_exists_units.mp hpos
  exact if_pos (le_iff_exists_units.mpr ⟨i, j, hi, hj, hij.le⟩)

theorem strokeWidth_nonneg (width : Binary64) : 0 ≤ strokeWidth width := by
  unfold strokeWidth
  split
  · assumption
  · decide +kernel

theorem strokeWidth_pos_iff {width : Binary64} : 0 < strokeWidth width ↔ 0 < width := by
  refine ⟨fun hpos => ?_, fun hpos => (strokeWidth_eq_of_pos hpos).symm ▸ hpos⟩
  unfold strokeWidth at hpos
  split at hpos
  · exact hpos
  · exact absurd hpos (by decide +kernel)

/-- The widths that are stroked with a positive width: those above half of the least single precision number. -/
theorem strokeWidth_toSingle_pos_iff {width : Binary64} : 0 < strokeWidth width.toSingle ↔ halfLeastSingle < width :=
  strokeWidth_pos_iff.trans toSingle_pos_iff

end PaintSpec

/-! ### What is accepted and what is drawn -/

namespace Canvas

variable {surfaces : SurfaceMaker} {resolution : List Number} {parameters : Parameters} {c : Canvas}
  {calls : List Call}

/-- A padding of `nan` makes no canvas. -/
theorem exists_padding_of_make (hchecked : parameters.checked = .ok parameters)
    (hmake : make surfaces resolution parameters = .ok (c, calls)) :
    ∃ p, parameters.padding.rational? = some p ∧ 0 ≤ p := by
  obtain ⟨-, -, -, -, p, -, -, -, hp, -, -, hnonneg, -⟩ := exists_rational_of_make hchecked hmake
  exact ⟨p, hp, hnonneg⟩

/-- The calls of a run on a canvas that was made, those of its making included. -/
theorem every_run_of_make (hmake : make surfaces resolution parameters = .ok (c, calls)) (steps : List Step) :
    ∀ call ∈ c.run calls steps, c.HasStrokeWidth call := by
  refine every_run ?_ steps
  have hclear := c.every_clear
  rw [clear_eq_of_make hmake] at hclear
  exact hclear

/-- **The width of strokes**: a padding is accepted if it is not below zero, a width if it is positive, and `nan` in
both places. The padding of a canvas that was made is at least zero. Every stroke of every run on it has the width of
its parameters in single precision where that is positive, and no width otherwise; it is positive exactly if the
given width is more than half of the least positive single precision number. -/
theorem drawn_widths (p : Parameters) :
    (p.checked = .ok p ↔ (p.padding.isAtLeastZero = true ∨ p.padding = .real .nan) ∧
      (p.lineWidth.isPositive = true ∨ p.lineWidth = .real .nan)) ∧
    ∀ surfaces resolution c calls, p.checked = .ok p → make surfaces resolution p = .ok (c, calls) →
      (∃ q, p.padding.rational? = some q ∧ 0 ≤ q) ∧
      ∀ steps points paint, Call.polyline points paint ∈ c.run calls steps →
        ∃ w, p.lineWidth.toBinary64? = some w ∧ 0 ≤ paint.width ∧ (0 < paint.width ↔ halfLeastSingle < w) ∧
          (halfLeastSingle < w → paint.width = w.toSingle) := by
  refine ⟨p.checked_iff, ?_⟩
  intro surfaces resolution c calls hchecked hmake
  refine ⟨exists_padding_of_make hchecked hmake, ?_⟩
  intro steps points paint hcall
  obtain ⟨w, hw, hwidth⟩ := every_run_of_make hmake steps _ hcall
  rw [parameters_of_make hmake] at hw
  refine ⟨w, hw, ?_⟩
  rw [hwidth]
  exact ⟨PaintSpec.strokeWidth_nonneg _, PaintSpec.strokeWidth_toSingle_pos_iff,
    fun hlarge => PaintSpec.strokeWidth_eq_of_pos (toSingle_pos_iff.mpr hlarge)⟩

/-- A canvas that shows its axes has strokes from the start. -/
theorem exists_stroke_of_make (hmake : make surfaces resolution parameters = .ok (c, calls))
    (haxes : parameters.showAxes = true) :
    ∃ points paint, Call.polyline points paint ∈ c.run calls [] := by
  obtain ⟨color, -, hshown, -⟩ := calls_of_make hmake
  obtain ⟨paint, -, rfl⟩ := hshown haxes
  exact ⟨_, paint, List.mem_cons_of_mem _ List.mem_cons_self⟩

/-- Parameters without a width are refused; a plain canvas has strokes, all of width one. -/
theorem plain_strokes_one_wide :
    Parameters.checked { lineWidth := .int 0 } ≠ .ok { lineWidth := .int 0 } ∧
    ∃ c calls, make .wordSized [.int 600, .int 600] = .ok (c, calls) ∧
      (∃ points paint, .polyline points paint ∈ c.run calls []) ∧
      ∀ steps points paint, .polyline points paint ∈ c.run calls steps → paint.width = 1 := by
  constructor
  · intro hchecked
    have hpositive := ((drawn_widths _).1.mp hchecked).2
    revert hpositive
    decide +kernel
  · obtain ⟨c, calls, hmake, -⟩ := exists_plain_canvas
    refine ⟨c, calls, hmake, exists_stroke_of_make hmake rfl, ?_⟩
    intro steps points paint hcall
    obtain ⟨w, hw, -, -, hwidth⟩ :=
      ((drawn_widths _).2 _ _ c calls Parameters.checked_default hmake).2 steps points paint hcall
    cases hw
    calc paint.width = (1 : Binary64).toSingle := hwidth (by decide +kernel)
      _ = 1 := by decide +kernel

/-- A padding and a width of `nan` are accepted, and so is a positive width that strokes without any. -/
theorem nan_accepted_and_thin_strokes :
    (∃ p : Parameters, p.checked = .ok p ∧ p.padding.isAtLeastZero = false) ∧
    (∃ p : Parameters, p.checked = .ok p ∧ p.lineWidth.isPositive = false) ∧
    ∃ (p : Parameters) (c : Canvas) (calls : List Call) (points : List (Point Binary64)) (paint : Paint),
      p.checked = .ok p ∧ p.lineWidth.isPositive = true ∧ make .wordSized [.int 600, .int 600] p = .ok (c, calls) ∧
        .polyline points paint ∈ c.run calls [] ∧ ¬ 0 < paint.width := by
  refine ⟨⟨{ padding := .real .nan }, ?_, rfl⟩, ⟨{ lineWidth := .real .nan }, ?_, rfl⟩, ?_⟩
  · exact (Parameters.checked_iff _).mpr ⟨.inr rfl, .inl (by decide +kernel)⟩
  · exact (Parameters.checked_iff _).mpr ⟨.inl (by decide +kernel), .inr rfl⟩
  · have hok : (make .wordSized [.int 600, .int 600] { lineWidth := .real (.ofFraction 1 (10 ^ 50)) }).isOk =
        true := by decide +kernel
    obtain ⟨⟨c, calls⟩, hmake⟩ := exists_of_isOk hok
    obtain ⟨points, paint, hcall⟩ := exists_stroke_of_make hmake rfl
    obtain ⟨w, hw, hwidth⟩ := every_run_of_make hmake [] _ hcall
    rw [parameters_of_make hmake] at hw
    cases hw
    have hpositive : (Number.real (.ofFraction 1 (10 ^ 50))).isPositive = true := by decide +kernel
    refine ⟨_, c, calls, points, paint, ?_, hpositive, hmake, hcall, ?_⟩
    · exact (Parameters.checked_iff _).mpr ⟨.inl (by decide +kernel), .inl hpositive⟩
    · rw [hwidth, PaintSpec.strokeWidth_toSingle_pos_iff]
      decide +kernel

end Canvas

end PlaneSketch
