import PlaneSketch.Proofs.Binary64.Narrowing
import PlaneSketch.Proofs.Canvas.Construction
import PlaneSketch.Proofs.Transform.Overflow

/-!
# Why a path cannot be drawn

A path can be drawn unless its colour is none, the width of strokes is out of range, or its transform is missing or not
finite; they are looked at in this order. `Canvas.obstacle` is what stands in the way, and `Canvas.Strokes` are the calls
that are made where nothing does.

* `paint_eq`: the paint of a known colour, or the fault of the width.
* `drawPath_eq_stop`, `drawPath_of_no_obstacle`: what drawing a path does, with and without an obstacle.
* `drawPath_fault`: the fault that drawing a path of a known colour ends with, if any.
-/

namespace PlaneSketch

theorem Trace.andThen_idle (t : Trace) : t.andThen .idle = t := by
  obtain ⟨calls, fault⟩ := t
  cases fault <;> simp [andThen, idle]

theorem PaintSpec.paint_of_color_error {p : PaintSpec} {fault : Fault} (h : p.color.color = .error fault) :
    p.paint = .error fault := by
  rw [paint, h]
  rfl

namespace Canvas

variable (c : Canvas)

/-- What keeps a path from being drawn, if anything does: its colour, then the width of strokes, then its transform. -/
def obstacle (p : Path Binary64) : Option Fault :=
  match p.color.color, c.parameters.lineWidth.toBinary64?, p.transform with
  | .error fault, _, _ => some fault
  | .ok _, none, _ => some .widthTooLarge
  | .ok _, some _, none => some (.missingTransform .composing)
  | .ok _, some _, some t => if t.isFinite then none else some (.lastRow t.refusedRow)

/-- The width of strokes is that of the parameters in single precision, or zero where this is not at least zero. -/
def IsStrokeWidth (width : Binary64) : Prop :=
  ∃ x s, c.parameters.lineWidth.toBinary64? = some x ∧ x.Narrows s ∧ width = if 0 ≤ s then s else 0

/-- The calls for a path that nothing keeps from being drawn. Its points as the composed transform maps them, each
coordinate in single precision, are stroked in the path's colour and in the canvas's width; fewer than two points are
not. -/
def Strokes (p : Path Binary64) (calls : List Call) : Prop :=
  ∃ t w k width points, p.transform = some t ∧ Transform.compose t c.area.viewport = .ok w ∧
    p.color.color = .ok k ∧ c.IsStrokeWidth width ∧
    List.Forall₂ (fun v s => (w.apply v).x.Narrows s.x ∧ (w.apply v).y.Narrows s.y) p.points points ∧
    calls = if p.points.length < 2 then [] else
      [.polyline points ⟨k.quantized, width, .outline, .butt, .miter, true⟩]

theorem polyline_eq (points : List (Point Binary64)) (paint : Paint) :
    polyline points paint =
      ⟨if points.length < 2 then [] else [.polyline (points.map Point.toSingle) paint], none⟩ := by
  unfold polyline
  split <;> rfl

theorem pathPixels_eq (a : Area Binary64) {p : Path Binary64} {t : Transform Binary64}
    (ht : p.transform = some t) :
    a.pathPixels p = (Transform.compose t a.viewport).map fun w => p.points.map w.apply := by
  simp only [Area.pathPixels, Path.transformedPoints, Path.transformFor, ht,
    Transform.applyAll_eq_map Binary64.mul_comm, bind, Except.bind]
  cases Transform.compose t a.viewport <;> rfl

theorem paint_eq {color : ColorSpec} {k : Color} (hk : color.color = .ok k) :
    c.paint color = match c.parameters.lineWidth.toBinary64? with
      | some w => .ok ⟨k.quantized, PaintSpec.strokeWidth w.toSingle, .outline, .butt, .miter, true⟩
      | none => .error .widthTooLarge := by
  have hfill : Style.named Style.fills "stroke" = .ok .outline := rfl
  have hcap : Style.named Style.caps "butt" = .ok .butt := rfl
  have hjoin : Style.named Style.joins "miter" = .ok .miter := rfl
  simp only [paint, PaintSpec.paint, hk, hfill, hcap, hjoin, Number.toBinary64Or]
  cases c.parameters.lineWidth.toBinary64? <;> rfl

/-- The points of a polyline are the nearest ones in single precision. -/
theorem narrows_map_toSingle (w : Transform Binary64) (points : List (Point Binary64)) :
    List.Forall₂ (fun v s => (w.apply v).x.Narrows s.x ∧ (w.apply v).y.Narrows s.y) points
      ((points.map w.apply).map Point.toSingle) := by
  induction points with
  | nil => exact .nil
  | cons v points ih => exact .cons ⟨Binary64.narrows_toSingle _, Binary64.narrows_toSingle _⟩ ih

/-! ### Drawing a path -/

variable {c} {p : Path Binary64}

/-- A path with an obstacle makes no call. -/
theorem drawPath_eq_stop {fault : Fault} (hobstacle : c.obstacle p = some fault) : c.drawPath p = .stop fault := by
  -- the cases follow the order in which a path is looked at
  unfold obstacle at hobstacle
  cases hk : p.color.color with
  | error e =>
    have hpaint : c.paint p.color = .error e := PaintSpec.paint_of_color_error hk
    simp only [hk, Option.some.injEq] at hobstacle
    rw [drawPath, hpaint, hobstacle]
    rfl
  | ok k =>
    have hpaint := c.paint_eq hk
    cases hx : c.parameters.lineWidth.toBinary64? with
    | none =>
      simp only [hk, hx, Option.some.injEq] at hobstacle hpaint
      rw [drawPath, hpaint, ← hobstacle]
      rfl
    | some x =>
      cases ht : p.transform with
      | none =>
        simp only [hk, hx, ht, Option.some.injEq] at hobstacle hpaint
        simp only [drawPath, hpaint, Trace.ofExcept, Area.pathPixels, Path.transformedPoints, Path.transformFor, ht,
          bind, Except.bind, hobstacle]
      | some t =>
        simp only [hk, hx, ht, Option.ite_none_left_eq_some, Bool.not_eq_true, Option.some.injEq] at hobstacle hpaint
        have hcompose : Transform.compose t c.area.viewport = .error fault :=
          Transform.after_eq_error_iff.mpr ⟨hobstacle.1, hobstacle.2.symm⟩
        simp only [drawPath, hpaint, Trace.ofExcept, pathPixels_eq c.area ht, hcompose, Except.map]

/-- A path without an obstacle makes its calls, and no fault. -/
theorem drawPath_of_no_obstacle (hobstacle : c.obstacle p = none) :
    ∃ calls, c.Strokes p calls ∧ c.drawPath p = ⟨calls, none⟩ := by
  unfold obstacle at hobstacle
  cases hk : p.color.color with
  | error e => simp [hk] at hobstacle
  | ok k =>
    cases hx : c.parameters.lineWidth.toBinary64? with
    | none => simp [hk, hx] at hobstacle
    | some x =>
      cases ht : p.transform with
      | none => simp [hk, hx, ht] at hobstacle
      | some t =>
        have hpaint := c.paint_eq hk
        have hfin : t.isFinite = true := by simpa [hk, hx, ht] using hobstacle
        cases hcompose : Transform.compose t c.area.viewport with
        | error fault =>
          rw [(Transform.after_eq_error_iff.mp hcompose).1] at hfin
          cases hfin
        | ok w =>
          refine ⟨_, ⟨t, w, k, _, _, ht, hcompose, hk, ⟨x, _, hx, Binary64.narrows_toSingle x, rfl⟩,
            narrows_map_toSingle w p.points, rfl⟩, ?_⟩
          simp only [hx] at hpaint
          simp only [drawPath, hpaint, Trace.ofExcept, pathPixels_eq c.area ht, hcompose, Except.map, polyline_eq,
            List.length_map]
          rfl

theorem drawPath_fault_eq_obstacle : (c.drawPath p).fault = c.obstacle p := by
  cases hobstacle : c.obstacle p with
  | none =>
    obtain ⟨calls, -, hdraw⟩ := drawPath_of_no_obstacle hobstacle
    rw [hdraw]
  | some fault => rw [drawPath_eq_stop hobstacle]; rfl

/-- The fault that drawing a path of a known colour ends with. -/
theorem drawPath_fault {t : Transform Binary64} {k : Color} (ht : p.transform = some t) (hk : p.color.color = .ok k) :
    (c.drawPath p).fault =
      if c.parameters.lineWidth.toBinary64?.isNone then some .widthTooLarge
      else if t.isFinite then none else some (.lastRow t.refusedRow) := by
  rw [drawPath_fault_eq_obstacle, obstacle, hk, ht]
  cases c.parameters.lineWidth.toBinary64? <;> rfl

end Canvas

end PlaneSketch
