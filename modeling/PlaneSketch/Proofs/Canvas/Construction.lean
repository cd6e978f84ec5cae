import PlaneSketch.Canvas.Basic

/-!
# How canvases come about

A canvas is made from a resolution of two positive lengths, on the drawing area that they and the padding fix, and
only if the calls that clear it for the first time end without a fault.

* `exists_of_bind_eq_ok`: what is known of a sequence of computations that succeeded.
* `Area.make_eq_ok_iff_parts`: what is known of every drawing area that was made.
* `Canvas.make_eq_ok_iff`: what is known of every canvas that was made.
-/

namespace PlaneSketch

theorem exists_of_isOk {ε α : Type} {x : Except ε α} (h : x.isOk = true) : ∃ a, x = .ok a := by
  cases x with
  | error e => simp [Except.isOk, Except.toBool] at h
  | ok a => exact ⟨a, rfl⟩

/-- A sequence succeeds by way of a value. -/
theorem exists_of_bind_eq_ok {ε α β : Type} {x : Except ε α} {f : α → Except ε β} {b : β} (h : x >>= f = .ok b) :
    ∃ a, x = .ok a ∧ f a = .ok b := by
  cases x with
  | error e => cases h
  | ok a => exact ⟨a, rfl, h⟩

theorem bind_eq_ok {ε α β : Type} {x : Except ε α} {f : α → Except ε β} {a : α} {b : β} (hx : x = .ok a)
    (hf : f a = .ok b) : x >>= f = .ok b := by
  rw [hx]
  exact hf

theorem bind_eq_ok_iff {ε α β : Type} {x : Except ε α} {f : α → Except ε β} {b : β} :
    x >>= f = .ok b ↔ ∃ a, x = .ok a ∧ f a = .ok b :=
  ⟨exists_of_bind_eq_ok, fun ⟨_, hx, hf⟩ => bind_eq_ok hx hf⟩

namespace Area

variable {N K : Type} [Zero K] [One K] [BEq K] [Add K] [Mul K] [Neg K] [SelfEqualUnits K] [Reported K]
  [Measure N K] [Div K] [OfNat K 2] {width height padding : N} {makeSurface : Size → Except Fault Unit} {a : Area K}

/-- What an area is made of. -/
theorem make_eq_ok_iff_parts :
    make width height padding makeSurface = .ok a ↔ ∃ x y z, extent width padding = .ok a.size.width ∧
      extent height padding = .ok a.size.height ∧ makeSurface a.size = .ok () ∧ Measure.coordinate width = .ok x ∧
      Measure.coordinate height = .ok y ∧ Measure.coordinate padding = .ok z ∧
      Transform.paddedViewport x y z = .ok a.viewport := by
  simp only [make, bind_eq_ok_iff, Except.ok.injEq]
  constructor
  · rintro ⟨columns, hcolumns, rows, hrows, ⟨⟩, hsurface, x, hx, y, hy, z, hz, viewport, hviewport, rfl⟩
    exact ⟨x, y, z, hcolumns, hrows, hsurface, hx, hy, hz, hviewport⟩
  · rintro ⟨x, y, z, hcolumns, hrows, hsurface, hx, hy, hz, hviewport⟩
    exact ⟨_, hcolumns, _, hrows, (), hsurface, x, hx, y, hy, z, hz, _, hviewport, rfl⟩

/-- An area on a surface is the area by itself, on a surface that is made in its size. -/
theorem make_eq_ok_iff :
    make width height padding makeSurface = .ok a ↔ make width height padding = .ok a ∧ makeSurface a.size = .ok () := by
  simp only [make_eq_ok_iff_parts, true_and]
  constructor
  · rintro ⟨x, y, z, hcolumns, hrows, hsurface, hcoordinates⟩
    exact ⟨⟨x, y, z, hcolumns, hrows, hcoordinates⟩, hsurface⟩
  · rintro ⟨⟨x, y, z, hcolumns, hrows, hcoordinates⟩, hsurface⟩
    exact ⟨x, y, z, hcolumns, hrows, hsurface, hcoordinates⟩

end Area

namespace Canvas

variable {surfaces : SurfaceMaker} {resolution : List Number} {parameters : Parameters}

theorem make_eq_ok_iff {c : Canvas} {calls : List Call} :
    make surfaces resolution parameters = .ok (c, calls) ↔
      ∃ w h area, resolution = [w, h] ∧ w.isPositive = true ∧ h.isPositive = true ∧
        Area.make w h parameters.padding = .ok area ∧ surfaces.make area.size = .ok () ∧
        c = ⟨(w, h), parameters, area⟩ ∧ c.clear = ⟨calls, none⟩ := by
  constructor
  · intro hmake
    unfold make at hmake
    split at hmake
    · rename_i w h
      split at hmake
      · rename_i hpos
        obtain ⟨hw, hh⟩ := Bool.and_eq_true_iff.mp hpos
        obtain ⟨area, harea, hcleared⟩ := exists_of_bind_eq_ok hmake
        obtain ⟨harea, hsurface⟩ := Area.make_eq_ok_iff.mp harea
        dsimp only at hcleared
        split at hcleared
        · rename_i hclear
          cases hcleared
          exact ⟨w, h, area, rfl, hw, hh, harea, hsurface, rfl, hclear⟩
        · simp at hcleared
      · simp at hmake
    · simp at hmake
  · rintro ⟨w, h, area, rfl, hw, hh, harea, hsurface, rfl, hclear⟩
    have harea := Area.make_eq_ok_iff.mpr ⟨harea, hsurface⟩
    simp [make, hw, hh, harea, hclear, bind, Except.bind]

theorem parameters_of_make {made : Canvas × List Call} (hmake : make surfaces resolution parameters = .ok made) :
    made.1.parameters = parameters := by
  obtain ⟨c, calls⟩ := made
  obtain ⟨w, h, area, -, -, -, -, -, rfl, -⟩ := make_eq_ok_iff.mp hmake
  rfl

end Canvas

theorem exists_plain_canvas :
    ∃ c calls, Canvas.make .wordSized [.int 600, .int 600] = .ok (c, calls) ∧ c.parameters.lineWidth = .real 1 := by
  have hok : (Canvas.make .wordSized [.int 600, .int 600]).isOk = true := by decide +kernel
  obtain ⟨made, hmake⟩ := exists_of_isOk hok
  exact ⟨made.1, made.2, hmake, by rw [Canvas.parameters_of_make hmake]⟩

end PlaneSketch
