import Mathlib.Data.List.Forall2
import PlaneSketch.Proofs.Canvas.Faults

/-!
# The calls of drawing paths

Paths are drawn one after another up to the first one with an obstacle. The calls are those of the paths before it,
and the obstacle is the fault that drawing ends with; the paths behind it are not looked at.

* `draw_eq`: the calls and the fault of drawing a list of paths.
* `draw_append`: drawing two lists one after the other.
* `draw_calls_and_fault`: both together.
-/

namespace PlaneSketch

namespace Trace

@[simp] theorem idle_andThen (t : Trace) : idle.andThen t = t := rfl

@[simp] theorem stop_andThen (fault : Fault) (t : Trace) : (stop fault).andThen t = stop fault := rfl

theorem andThen_assoc (t u v : Trace) : (t.andThen u).andThen v = t.andThen (u.andThen v) := by
  obtain ⟨calls, fault⟩ := t
  obtain ⟨calls', fault'⟩ := u
  cases fault with
  | some f => rfl
  | none =>
    cases fault' with
    | some f => rfl
    | none => exact congrArg (Trace.mk · v.fault) (List.append_assoc calls calls' v.calls)

theorem calls_andThen (t u : Trace) :
    (t.andThen u).calls = t.calls ++ if t.fault.isSome then [] else u.calls := by
  obtain ⟨calls, fault⟩ := t
  cases fault <;> simp [andThen]

theorem fault_andThen (t u : Trace) : (t.andThen u).fault = t.fault.or u.fault := by
  obtain ⟨calls, fault⟩ := t
  cases fault <;> rfl

end Trace

namespace Canvas

variable (c : Canvas)

/-- The position of the first path with an obstacle; the number of paths if there is none. -/
def firstObstacle (ps : List (Path Binary64)) : Nat := ps.findIdx fun p => (c.obstacle p).isSome

theorem draw_cons (p : Path Binary64) (ps : List (Path Binary64)) :
    c.draw (p :: ps) = (c.drawPath p).andThen (c.draw ps) := rfl

variable {c} in
theorem firstObstacle_cons_of_some {p : Path Binary64} {fault : Fault} (hobstacle : c.obstacle p = some fault)
    (ps : List (Path Binary64)) : c.firstObstacle (p :: ps) = 0 := by
  simp [firstObstacle, List.findIdx_cons, hobstacle]

variable {c} in
theorem firstObstacle_cons_of_none {p : Path Binary64} (hobstacle : c.obstacle p = none)
    (ps : List (Path Binary64)) : c.firstObstacle (p :: ps) = c.firstObstacle ps + 1 := by
  simp [firstObstacle, List.findIdx_cons, hobstacle]

/-- The paths before the first obstacle make their calls in order, and the obstacle is the fault. -/
theorem draw_eq (ps : List (Path Binary64)) :
    ∃ parts, List.Forall₂ c.Strokes (ps.take (c.firstObstacle ps)) parts ∧
      c.draw ps = ⟨parts.flatten, ps[c.firstObstacle ps]?.bind c.obstacle⟩ := by
  induction ps with
  | nil => exact ⟨[], .nil, rfl⟩
  | cons p ps ih =>
    rw [draw_cons]
    -- the first obstacle is either at the head or one further on than in the tail
    cases hobstacle : c.obstacle p with
    | some fault =>
      rw [firstObstacle_cons_of_some hobstacle, drawPath_eq_stop hobstacle, Trace.stop_andThen]
      refine ⟨[], .nil, ?_⟩
      simp [Trace.stop, hobstacle]
    | none =>
      obtain ⟨calls, hcalls, hdraw⟩ := drawPath_of_no_obstacle hobstacle
      obtain ⟨parts, hparts, hrest⟩ := ih
      rw [firstObstacle_cons_of_none hobstacle, hdraw, hrest, List.take_succ_cons, List.getElem?_cons_succ]
      exact ⟨calls :: parts, .cons hcalls hparts, rfl⟩

theorem draw_append (ps qs : List (Path Binary64)) : c.draw (ps ++ qs) = (c.draw ps).andThen (c.draw qs) := by
  induction ps with
  | nil => rfl
  | cons p ps ih => rw [List.cons_append, draw_cons, draw_cons, ih, Trace.andThen_assoc]

theorem draw_fault_isSome_iff (ps : List (Path Binary64)) :
    (c.draw ps).fault.isSome = true ↔ c.firstObstacle ps < ps.length := by
  obtain ⟨parts, -, hdraw⟩ := c.draw_eq ps
  rw [hdraw]
  constructor
  · intro hsome
    by_contra hle
    rw [List.getElem?_eq_none (Nat.le_of_not_lt hle)] at hsome
    cases hsome
  · intro hlt
    have hfirst : (c.obstacle ps[c.firstObstacle ps]).isSome = true := List.findIdx_getElem (w := hlt)
    rwa [List.getElem?_eq_getElem hlt]

/-- **Drawing paths** makes the calls of the paths before the first obstacle, in their order and no others. It ends in
a fault exactly if there is an obstacle, which then is the fault. Drawing two lists is drawing the first and then,
unless that failed, the second. -/
theorem draw_calls_and_fault (ps qs : List (Path Binary64)) :
    (∃ parts, List.Forall₂ c.Strokes (ps.take (c.firstObstacle ps)) parts ∧ (c.draw ps).calls = parts.flatten) ∧
    (c.draw ps).fault = ps[c.firstObstacle ps]?.bind c.obstacle ∧
    ((c.draw ps).fault.isSome = true ↔ c.firstObstacle ps < ps.length) ∧
    (c.draw (ps ++ qs)).calls = (c.draw ps).calls ++ (if (c.draw ps).fault.isSome then [] else (c.draw qs).calls) ∧
    (c.draw (ps ++ qs)).fault = (c.draw ps).fault.or (c.draw qs).fault := by
  obtain ⟨parts, hparts, hdraw⟩ := c.draw_eq ps
  refine ⟨⟨parts, hparts, ?_⟩, ?_, c.draw_fault_isSome_iff ps, ?_, ?_⟩
  · rw [hdraw]
  · rw [hdraw]
  · rw [draw_append, Trace.calls_andThen]
  · rw [draw_append, Trace.fault_andThen]

/-- A diagonal with an end that is rounded, a path of a single point, an infinite stretch, and the diagonal again. -/
theorem diagonal_point_and_infinite_stretch :
    let diagonal : Path Binary64 :=
      ⟨[⟨-1, -1⟩, ⟨.ofFraction 1 3, 1⟩], some .identity, .components [.real (.ofFraction 1 2), .int 0, .int 1]⟩
    let point : Path Binary64 := ⟨[⟨0, 0⟩], some (.translation 1 0), .black⟩
    let stretched : Path Binary64 := ⟨[⟨0, 0⟩, ⟨1, 1⟩], some (.scaling (.infinite false) 1), .named "red"⟩
    let stroke : Call := .polyline [⟨100, 500⟩, ⟨.ofFraction 16405845 32768, 100⟩]
      ⟨⟨.ofFraction 8421505 16777216, 0, 1, 1⟩, .ofFraction 13421773 134217728, .outline, .butt, .miter, true⟩
    ∃ c calls parts,
      make .wordSized [.int 601, .int 400] { lineWidth := .real (.ofFraction 1 10) } = .ok (c, calls) ∧
      List.Forall₂ c.Strokes [diagonal, point] parts ∧ parts.flatten = [stroke] ∧
      (c.draw [diagonal, point, stretched, diagonal]).calls = [stroke] ∧
      (c.draw [diagonal, point, stretched, diagonal]).fault = some (.lastRow ⟨.nan, 0, 1⟩) := by
  intro diagonal point stretched stroke
  let made := make .wordSized [.int 601, .int 400] { lineWidth := .real (.ofFraction 1 10) }
  have hdraw : made.map (fun made => made.1.draw [diagonal, point, stretched, diagonal]) =
      .ok ⟨[stroke], some (.lastRow ⟨.nan, 0, 1⟩)⟩ := by decide +kernel
  have hfirst : made.map (fun made => made.1.firstObstacle [diagonal, point, stretched, diagonal]) = .ok 2 := by
    decide +kernel
  cases hmake : made with
  | error fault => simp [hmake, Except.map] at hdraw
  | ok canvas =>
    obtain ⟨c, calls⟩ := canvas
    simp only [hmake, Except.map, Except.ok.injEq] at hdraw hfirst
    obtain ⟨⟨parts, hparts, hcalls⟩, -⟩ := c.draw_calls_and_fault [diagonal, point, stretched, diagonal] []
    rw [hfirst] at hparts
    rw [hdraw] at hcalls
    exact ⟨c, calls, parts, hmake, hparts, hcalls.symm, by rw [hdraw], by rw [hdraw]⟩

end Canvas

end PlaneSketch
