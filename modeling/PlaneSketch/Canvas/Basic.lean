import PlaneSketch.Canvas.Drawing
import PlaneSketch.Canvas.Parameters

/-!
# Canvases

A canvas has a drawing area of a given resolution, padded on every side, on a surface just large enough for
it. What a step of drawing does is the list of calls it makes, together with the fault that stopped it, if
one did; `Trace.andThen` goes on only where nothing failed.
-/

namespace PlaneSketch

/-- The calls that a step made, and the fault it ended with, if any. -/
structure Trace where
  calls : List Call
  fault : Option Fault
  deriving DecidableEq

namespace Trace

def idle : Trace := ⟨[], none⟩

def call (c : Call) : Trace := ⟨[c], none⟩

def stop (f : Fault) : Trace := ⟨[], some f⟩

/-- First `t`, then `u` unless `t` failed. -/
def andThen (t u : Trace) : Trace :=
  match t.fault with
  | none => ⟨t.calls ++ u.calls, u.fault⟩
  | some _ => t

/-- What comes of a value, or the fault in its place. -/
def ofExcept {α : Type} (x : Except Fault α) (use : α → Trace) : Trace :=
  match x with
  | .ok a => use a
  | .error f => stop f

end Trace

structure Canvas where
  resolution : Number × Number
  parameters : Parameters
  area : Area Binary64

namespace Canvas

/-- A polyline through points, in single precision; fewer than two points draw nothing. -/
def polyline (points : List (Point Binary64)) (paint : Paint) : Trace :=
  if points.length < 2 then .idle else .call (.polyline (points.map Point.toSingle) paint)

variable (c : Canvas)

def paint (color : ColorSpec) : Except Fault Paint :=
  PaintSpec.paint { color, width := c.parameters.lineWidth }

def drawAxes : Trace :=
  .ofExcept (c.paint c.parameters.axesColor) fun paint =>
    (polyline c.area.xAxisPixels paint).andThen (polyline c.area.yAxisPixels paint)

/-- Clears to the background, and strokes the axes if they are to be shown. -/
def clear : Trace :=
  .ofExcept c.parameters.background.color fun color =>
    (Trace.call (.clear color)).andThen (if c.parameters.showAxes then c.drawAxes else .idle)

/-- Strokes a path. Its colour is looked at before its transform. -/
def drawPath (p : Path Binary64) : Trace :=
  .ofExcept (c.paint p.color) fun paint =>
    .ofExcept (c.area.pathPixels p) fun points => polyline points paint

/-- Strokes paths one after another, up to the first that fails. -/
def draw (paths : List (Path Binary64)) : Trace :=
  paths.foldr (fun p rest => (c.drawPath p).andThen rest) .idle

/-! ### Construction -/

/-- The canvas of a resolution, and the calls that prepare its surface. -/
def make (surfaces : SurfaceMaker) (resolution : List Number) (parameters : Parameters := {}) :
    Except Fault (Canvas × List Call) := do
  match resolution with
  | [w, h] =>
    if w.isPositive && h.isPositive then
      let c : Canvas := ⟨(w, h), parameters, ← Area.make w h parameters.padding surfaces.make⟩
      match c.clear with
      | ⟨calls, none⟩ => .ok (c, calls)
      | ⟨_, some fault⟩ => .error fault
    else .error (.resolutionNotPositive resolution)
  | _ => .error .resolutionCount

/-! ### Runs of steps -/

inductive Step where
  | clear
  | drawAxes
  | drawPath (p : Path Binary64)
  | draw (ps : List (Path Binary64))

def step : Step → Trace
  | .clear => c.clear
  | .drawAxes => c.drawAxes
  | .drawPath p => c.drawPath p
  | .draw ps => c.draw ps

/-- What is drawn after steps, on a surface with calls already made. -/
def run (calls : List Call) : List Step → List Call
  | [] => calls
  | s :: steps => run (calls ++ (c.step s).calls) steps

end Canvas

end PlaneSketch
