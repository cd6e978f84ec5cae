import Mathlib.Order.Basic
import PlaneSketch.Proofs.Canvas.Faults
import PlaneSketch.Session

/-!
# Overflow in a session

Every numeral of a transformation text is finite, but a product of several of them need not be. A text whose
operations leave the finite range before the first of them is reached makes a fault instead of a view; one that
leaves it only there makes an accepted view that cannot be drawn.

* `fault_iff_overflowsEarly`: when reading a text, or taking it with any rectangle text, ends in a fault.
* `draw_accepted`: when an accepted view can be drawn.
-/

namespace PlaneSketch

namespace TransformText

/-- The operations of the text compose to `t`, which is not finite. -/
def OverflowTo (t : Transform Binary64) (s : String) : Prop :=
  ∃ ops, operations s = .ok ops ∧ Operation.OverflowTo t ops

/-- Some of the operations behind the first one compose to `t`, which is not finite. -/
def OverflowEarlyTo (t : Transform Binary64) (s : String) : Prop :=
  ∃ ops, operations s = .ok ops ∧ Operation.OverflowEarlyTo t ops

theorem read_eq_fault_iff {s : String} {fault : Fault} :
    read s = .ok (.error fault) ↔ ∃ t, OverflowEarlyTo t s ∧ fault = .lastRow t.refusedRow := by
  unfold read OverflowEarlyTo
  cases h : operations s with
  | error r => simp [Except.map]
  | ok ops => simp [Except.map, Operation.composed_eq_error_iff]

theorem read_eq_transform_iff {s : String} {t : Transform Binary64} :
    read s = .ok (.ok t) ↔ ∃ ops, operations s = .ok ops ∧ Operation.composed ops = .ok t := by
  unfold read
  cases h : operations s with
  | error r => simp [Except.map]
  | ok ops => simp [Except.map]

theorem overflowTo_iff_of_read {s : String} {t : Transform Binary64} (h : read s = .ok (.ok t)) :
    OverflowTo t s ↔ t.isFinite = false := by
  obtain ⟨ops, hops, ht⟩ := read_eq_transform_iff.mp h
  simp [OverflowTo, Operation.OverflowTo, hops, ht]

end TransformText

namespace View

open TransformText

variable {transformText rectangleText : String} {previous : Option (Transform Binary64)}

theorem update_eq_fault_iff {fault : Fault} :
    update transformText rectangleText previous = .error fault ↔ read transformText = .ok (.error fault) := by
  unfold update
  split <;> simp_all

/-- An accepted view shows the outline of the rectangle under the transform of the text. -/
theorem update_accepted_iff {view : View} :
    update transformText rectangleText previous = .ok view ∧ view.accepted = true ↔
      ∃ t r, read transformText = .ok (.ok t) ∧ Rectangle.read rectangleText = .ok r ∧
        view = ⟨t, [Path.ofRectangle r t .black], t.summary, true⟩ := by
  unfold update
  cases hread : read transformText with
  -- the transform in effect stays, but the view is not accepted
  | error rejected =>
    simp only [Except.ok.injEq, reduceCtorEq, false_and, exists_false, iff_false]
    rintro ⟨rfl, ha⟩
    revert ha
    unfold ofTransform
    split <;> simp
  | ok outcome =>
    cases outcome with
    | error fault => simp
    | ok t =>
      simp only [Except.ok.injEq, exists_and_left, exists_eq_left']
      unfold ofTransform
      cases Rectangle.read rectangleText with
      | error fault =>
        simp only [reduceCtorEq, false_and, exists_false, iff_false]
        rintro ⟨rfl, ha⟩
        simp at ha
      | ok r =>
        simp only [Except.ok.injEq, exists_eq_left', if_true]
        constructor
        · exact fun h => h.1.symm
        · rintro rfl
          exact ⟨rfl, rfl⟩

/-- **Faults**: a text is read without one, and gives a view with every rectangle text, unless its operations leave
the finite range before the first of them is reached; then the last row that they make is the fault. -/
theorem fault_iff_overflowsEarly (s : String) :
    (∀ fault, read s = .ok (.error fault) ↔ ∃ t, OverflowEarlyTo t s ∧ fault = .lastRow t.refusedRow) ∧
    ∀ rectangleText previous fault,
      update s rectangleText previous = .error fault ↔ ∃ t, OverflowEarlyTo t s ∧ fault = .lastRow t.refusedRow :=
  ⟨fun _ => read_eq_fault_iff, fun _ _ _ => update_eq_fault_iff.trans read_eq_fault_iff⟩

/-- Three terms with finite numerals that end in a fault. -/
theorem scale_after_far_shifts_fault :
    read "S(1,1)*T(1e308,0)*T(1e308,0)" = .ok (.error (.lastRow ⟨0, 0, .nan⟩)) ∧
    update "S(1,1)*T(1e308,0)*T(1e308,0)" defaultRectangleText none = .error (.lastRow ⟨0, 0, .nan⟩) := by
  have h : read "S(1,1)*T(1e308,0)*T(1e308,0)" = .ok (.error (.lastRow ⟨0, 0, .nan⟩)) := by decide +kernel
  exact ⟨h, update_eq_fault_iff.mpr h⟩

/-! ### Drawing -/

theorem exists_black : ∃ k, ColorSpec.black.color = .ok k :=
  exists_of_isOk (by decide +kernel)

theorem draw_outline_fault (c : Canvas) (r : Rectangle Binary64) (t : Transform Binary64) :
    (c.draw [Path.ofRectangle r t .black]).fault =
      if c.parameters.lineWidth.toBinary64?.isNone then some .widthTooLarge
      else if t.isFinite then none else some (.lastRow t.refusedRow) := by
  obtain ⟨k, hk⟩ := exists_black
  show ((c.drawPath (Path.ofRectangle r t .black)).andThen .idle).fault = _
  rw [Trace.andThen_idle]
  exact c.drawPath_fault rfl hk

/-- **Accepted views**: no operations behind the first one leave the finite range, the transform is not finite
exactly if the whole text does, and drawing on any canvas fails exactly for such a transform, or for a width of
strokes that is out of range. -/
theorem draw_accepted {view : View} (h : update transformText rectangleText previous = .ok view)
    (ha : view.accepted = true) (c : Canvas) :
    (∀ t, ¬ OverflowEarlyTo t transformText) ∧
    (view.transform.isFinite = false ↔ OverflowTo view.transform transformText) ∧
    (c.draw view.paths).fault =
      if c.parameters.lineWidth.toBinary64?.isNone then some .widthTooLarge
      else if view.transform.isFinite then none else some (.lastRow view.transform.refusedRow) := by
  obtain ⟨t, r, ht, -, rfl⟩ := update_accepted_iff.mp ⟨h, ha⟩
  -- an operation that overflows early would have made reading the text a fault
  refine ⟨fun u hearly => ?_, (overflowTo_iff_of_read ht).symm, draw_outline_fault c r t⟩
  simp [read_eq_fault_iff.mpr ⟨u, hearly, rfl⟩] at ht

/-- The view of a text whose transform is known, with the rectangle that is meant when none is given. -/
theorem exists_accepted {t : Transform Binary64} (ht : read transformText = .ok (.ok t)) :
    ∃ view r, update transformText defaultRectangleText previous = .ok view ∧ view.accepted = true ∧
      view.transform = t ∧ view.paths = [Path.ofRectangle r t .black] := by
  have hread : (Rectangle.read defaultRectangleText).isOk = true := by decide +kernel
  obtain ⟨r, hr⟩ := exists_of_isOk hread
  obtain ⟨hview, ha⟩ := update_accepted_iff.mpr ⟨t, r, ht, hr, rfl⟩
  exact ⟨_, r, hview, ha, rfl, rfl⟩

/-- A text that leaves the finite range nowhere is drawn. -/
theorem scale_after_shift_drawn :
    ∃ view c calls, update "S(2,2)*T(1,0)" defaultRectangleText none = .ok view ∧ view.accepted = true ∧
      Canvas.make .wordSized [.int 600, .int 600] = .ok (c, calls) ∧ view.transform.isFinite = true ∧
      (c.draw view.paths).fault = none := by
  have ht : read "S(2,2)*T(1,0)" = .ok (.ok (Transform.ofCoefficients 2 0 0 2 2 0)) := by decide +kernel
  have hfin : (Transform.ofCoefficients 2 0 0 2 2 0 : Transform Binary64).isFinite = true := by decide +kernel
  obtain ⟨view, r, hview, ha, htransform, -⟩ := exists_accepted ht
  obtain ⟨c, calls, hmake, hwidth⟩ := exists_plain_canvas
  obtain ⟨-, -, hdraw⟩ := draw_accepted hview ha c
  refine ⟨view, c, calls, hview, ha, hmake, htransform ▸ hfin, ?_⟩
  rw [hdraw, hwidth, htransform, hfin]
  rfl

/-- Two terms with finite numerals that make an accepted view which cannot be drawn. -/
theorem product_of_scales_not_drawn :
    ∃ view c calls, update "S(1e308,1)*S(1e308,1)" defaultRectangleText none = .ok view ∧ view.accepted = true ∧
      Canvas.make .wordSized [.int 600, .int 600] = .ok (c, calls) ∧ view.transform.isFinite = false ∧
      (c.draw view.paths).fault = some (.lastRow ⟨.nan, 0, 1⟩) := by
  have ht : read "S(1e308,1)*S(1e308,1)" =
      .ok (.ok (Transform.ofCoefficients (.infinite false) 0 0 1 0 0)) := by decide +kernel
  have hfin : (Transform.ofCoefficients (.infinite false) 0 0 1 0 0).isFinite = false := by decide +kernel
  obtain ⟨view, r, hview, ha, htransform, hpaths⟩ := exists_accepted ht
  obtain ⟨c, calls, hmake, hwidth⟩ := exists_plain_canvas
  refine ⟨view, c, calls, hview, ha, hmake, htransform ▸ hfin, ?_⟩
  have hrow : (Transform.ofCoefficients (.infinite false) 0 0 1 0 0).refusedRow = ⟨.nan, 0, 1⟩ := by decide +kernel
  rw [hpaths, draw_outline_fault, hwidth, hfin, hrow]
  rfl

end View

end PlaneSketch
