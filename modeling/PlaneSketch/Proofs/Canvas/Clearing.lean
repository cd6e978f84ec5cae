import PlaneSketch.Proofs.Canvas.Faults

/-!
# Clearing a canvas

A canvas is made by clearing it for the first time, so everything that clearing needs was there once, and steps of
drawing take nothing of it away. Clearing makes the same calls again at any time, and what is drawn afterwards is
what was drawn on the fresh canvas.

* `drawAxes_eq`, `clear_eq_iff`: what drawing the axes and clearing do.
* `clear_of_make`: clearing and drawing the axes on a canvas that was made.
* `pixel_run_clear`: the pixels of a cleared canvas are those of a fresh one.
-/

namespace PlaneSketch

/-- The call that strokes a polyline, its points being rounded to single precision. -/
def Call.stroke (paint : Paint) (points : List (Point Binary64)) : Call :=
  .polyline (points.map Point.toSingle) paint

/-- The polylines of the axes: the ends of the x-axis, then those of the y-axis. -/
def Area.axisStrokes {K : Type} [Zero K] [One K] [BEq K] [Add K] [Mul K] [Neg K] (a : Area K) :
    List (List (Point K)) :=
  [a.xAxisPixels, a.yAxisPixels]

namespace Canvas

variable (c : Canvas)

/-! ### What the steps do -/

theorem drawAxes_eq :
    c.drawAxes =
      .ofExcept (c.paint c.parameters.axesColor) fun paint => ⟨c.area.axisStrokes.map (Call.stroke paint), none⟩ := by
  unfold drawAxes
  cases c.paint c.parameters.axesColor with
  | error fault => rfl
  | ok paint =>
    simp only [Trace.ofExcept, polyline_eq]
    rfl

theorem drawAxes_fault_eq_some_iff {fault : Fault} :
    c.drawAxes.fault = some fault ↔ c.paint c.parameters.axesColor = .error fault := by
  rw [drawAxes_eq]
  cases c.paint c.parameters.axesColor <;> simp [Trace.ofExcept, Trace.stop]

variable {c} {calls : List Call}

theorem clear_eq_iff_of_axes (haxes : c.parameters.showAxes = true) :
    c.clear = ⟨calls, none⟩ ↔
      ∃ color paint, c.parameters.background.color = .ok color ∧ c.paint c.parameters.axesColor = .ok paint ∧
        calls = .clear color :: c.area.axisStrokes.map (Call.stroke paint) := by
  rw [clear, drawAxes_eq, if_pos haxes]
  cases c.parameters.background.color with
  | error fault => simp [Trace.ofExcept, Trace.stop]
  | ok color =>
    cases c.paint c.parameters.axesColor with
    | error fault => simp [Trace.ofExcept, Trace.stop, Trace.call, Trace.andThen]
    | ok paint => simp [Trace.ofExcept, Trace.call, Trace.andThen, eq_comm]

theorem clear_eq_iff_of_no_axes (haxes : c.parameters.showAxes = false) :
    c.clear = ⟨calls, none⟩ ↔ ∃ color, c.parameters.background.color = .ok color ∧ calls = [.clear color] := by
  rw [clear, haxes]
  cases c.parameters.background.color with
  | error fault => simp [Trace.ofExcept, Trace.stop]
  | ok color => simp [Trace.ofExcept, Trace.call, Trace.andThen, Trace.idle, eq_comm]

/-! ### Runs -/

theorem run_append (steps more : List Step) : c.run calls (steps ++ more) = c.run (c.run calls steps) more := by
  induction steps generalizing calls with
  | nil => rfl
  | cons s steps ih => exact ih

/-- The calls of a run come behind those that were there before. -/
theorem run_eq_append (steps : List Step) : c.run calls steps = calls ++ c.run [] steps := by
  induction steps generalizing calls with
  | nil => exact (List.append_nil calls).symm
  | cons s steps ih =>
    calc c.run calls (s :: steps) = c.run (calls ++ (c.step s).calls) steps := rfl
      _ = calls ++ ((c.step s).calls ++ c.run [] steps) := by rw [ih, List.append_assoc]
      _ = calls ++ c.run (c.step s).calls steps := by rw [← ih]
      _ = calls ++ c.run [] (s :: steps) := rfl

variable {surfaces : SurfaceMaker} {resolution : List Number} {parameters : Parameters}

theorem clear_eq_of_make (hmake : make surfaces resolution parameters = .ok (c, calls)) : c.clear = ⟨calls, none⟩ := by
  obtain ⟨w, h, area, -, -, -, -, -, -, hclear⟩ := make_eq_ok_iff.mp hmake
  exact hclear

theorem run_clear_of_make (hmake : make surfaces resolution parameters = .ok (c, calls)) (steps : List Step) :
    c.run calls (steps ++ [.clear]) = c.run calls steps ++ calls := by
  rw [run_append, run, run, step, clear_eq_of_make hmake]

/-- The calls that a canvas was made with. -/
theorem calls_of_make (hmake : make surfaces resolution parameters = .ok (c, calls)) :
    ∃ color, parameters.background.color = .ok color ∧
      (parameters.showAxes = true → ∃ paint, c.paint parameters.axesColor = .ok paint ∧
        calls = .clear color :: c.area.axisStrokes.map (Call.stroke paint)) ∧
      (parameters.showAxes = false → calls = [.clear color]) := by
  have hclear := clear_eq_of_make hmake
  have hparameters : c.parameters = parameters := parameters_of_make hmake
  rw [← hparameters]
  cases haxes : c.parameters.showAxes with
  | true =>
    obtain ⟨color, paint, hcolor, hpaint, hcalls⟩ := (clear_eq_iff_of_axes haxes).mp hclear
    exact ⟨color, hcolor, fun _ => ⟨paint, hpaint, hcalls⟩, by simp⟩
  | false =>
    obtain ⟨color, hcolor, hcalls⟩ := (clear_eq_iff_of_no_axes haxes).mp hclear
    exact ⟨color, hcolor, by simp, fun _ => hcalls⟩

/-- Axes without a paint are not shown, since the canvas was made without drawing them. -/
theorem showAxes_eq_false_of_make (hmake : make surfaces resolution parameters = .ok (c, calls)) {fault : Fault}
    (hfault : c.paint parameters.axesColor = .error fault) : parameters.showAxes = false := by
  obtain ⟨color, -, hshown, -⟩ := calls_of_make hmake
  rw [← Bool.not_eq_true]
  intro haxes
  obtain ⟨paint, hpaint, -⟩ := hshown haxes
  rw [hfault] at hpaint
  cases hpaint

/-- **A canvas that was made** can be cleared after any steps, with the calls it was made with: the background, and
the axes if they are to be shown. Drawing the axes fails exactly if they have no paint; then they are not shown. -/
theorem clear_of_make (hmake : make surfaces resolution parameters = .ok (c, calls)) :
    (∀ steps, c.step .clear = ⟨calls, none⟩ ∧ c.run calls (steps ++ [.clear]) = c.run calls steps ++ calls) ∧
    (∃ color, parameters.background.color = .ok color ∧
      (parameters.showAxes = true → ∃ paint, c.paint parameters.axesColor = .ok paint ∧
        calls = .clear color :: c.area.axisStrokes.map (Call.stroke paint)) ∧
      (parameters.showAxes = false → calls = [.clear color])) ∧
    ∀ fault, ((c.step .drawAxes).fault = some fault ↔ c.paint parameters.axesColor = .error fault) ∧
      ((c.step .drawAxes).fault = some fault → parameters.showAxes = false) := by
  have haxes : ∀ fault, (c.step .drawAxes).fault = some fault ↔ c.paint parameters.axesColor = .error fault :=
    fun fault => parameters_of_make hmake ▸ c.drawAxes_fault_eq_some_iff
  refine ⟨fun steps => ⟨clear_eq_of_make hmake, run_clear_of_make hmake steps⟩, calls_of_make hmake, ?_⟩
  intro fault
  exact ⟨haxes fault, fun hfault => showAxes_eq_false_of_make hmake ((haxes fault).mp hfault)⟩

/-- A canvas whose axes have no colour and are not shown: drawing them fails, clearing does not. -/
theorem hidden_axes_cleared :
    ∃ c calls color,
      make .wordSized [.int 600, .int 400] { showAxes := false, axesColor := .named "nowhere" } = .ok (c, calls) ∧
      calls = [.clear color] ∧ (c.step .drawAxes).fault = some (.unknownColor "nowhere") ∧
      c.step .clear = ⟨calls, none⟩ ∧
      c.run calls [.drawAxes, .clear] = c.run calls [.drawAxes] ++ calls := by
  have hok : (make .wordSized [.int 600, .int 400] { showAxes := false, axesColor := .named "nowhere" }).isOk =
      true := by decide +kernel
  obtain ⟨⟨c, calls⟩, hmake⟩ := exists_of_isOk hok
  obtain ⟨hclear, ⟨color, -, -, hhidden⟩, haxes⟩ := clear_of_make hmake
  have hpaint : c.paint (.named "nowhere") = .error (.unknownColor "nowhere") := by
    rw [paint, parameters_of_make hmake]
    rfl
  exact ⟨c, calls, color, hmake, hhidden rfl, (haxes _).1.mpr hpaint, (hclear []).1, (hclear [.drawAxes]).2⟩

end Canvas

/-! ### Pixels -/

namespace Drawing

theorem colorAfter_append (color : Color) (centre : Point Binary64) (calls more : List Call) :
    colorAfter color centre (calls ++ more) = colorAfter (colorAfter color centre calls) centre more := by
  induction calls generalizing color with
  | nil => rfl
  | cons call calls ih => cases call <;> exact ih _

/-- Nothing shows of what was there before a surface was cleared. -/
theorem pixel_append_clear (size : Size) (calls more : List Call) (color : Color) (column row : Nat) :
    pixel ⟨size, calls ++ .clear color :: more⟩ column row = pixel ⟨size, .clear color :: more⟩ column row := by
  simp only [pixel, colorAfter_append, colorAfter]

end Drawing

/-- **A cleared canvas** looks like a fresh one, also after further steps on both. -/
theorem Canvas.pixel_run_clear {surfaces : SurfaceMaker} {resolution : List Number} {parameters : Parameters}
    {c : Canvas} {calls : List Call} (hmake : make surfaces resolution parameters = .ok (c, calls))
    (steps more : List Step) (column row : Nat) :
    Drawing.pixel ⟨c.area.size, c.run calls (steps ++ .clear :: more)⟩ column row =
      Drawing.pixel ⟨c.area.size, c.run calls more⟩ column row := by
  have hsplit : c.run calls (steps ++ .clear :: more) = c.run calls steps ++ (calls ++ c.run [] more) := by
    rw [← List.singleton_append, ← List.append_assoc, run_append, run_clear_of_make hmake, run_eq_append,
      List.append_assoc]
  have hcalls : ∃ color rest, calls = .clear color :: rest := by
    obtain ⟨color, -, hshown, hhidden⟩ := calls_of_make hmake
    cases haxes : parameters.showAxes with
    | true =>
      obtain ⟨paint, -, hcalls⟩ := hshown haxes
      exact ⟨color, _, hcalls⟩
    | false => exact ⟨color, _, hhidden haxes⟩
  obtain ⟨color, rest, rfl⟩ := hcalls
  have hfresh : c.run (.clear color :: rest) more = .clear color :: (rest ++ c.run [] more) := run_eq_append more
  rw [hsplit, hfresh, List.cons_append, Drawing.pixel_append_clear]

end PlaneSketch
