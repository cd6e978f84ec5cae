import Mathlib.Algebra.BigOperators.Group.List.Basic
import PlaneSketch.Proofs.Transform.Exact
import PlaneSketch.TransformText

/-!
# What operations do to points

With exact arithmetic, where the cosine and the sine of an angle may be any two elements of the ring, the
transform of a list of operations maps a point as the operations do one after another, the last one first.
`TransformText.readIn` reads a text with the numbers and the arithmetic of any ring; reading in double precision is
one case of it.

* `composeOperations_eq_prod`: a list of operations composes to the product of their transforms.
* `composed_apply_eq_actAll`: composing and reading a text have this meaning.
-/

namespace PlaneSketch

/-- The same operation with its numbers taken over by `f`. -/
def Operation.map {K L : Type} (f : K → L) : Operation K → Operation L
  | scale sx sy => scale (f sx) (f sy)
  | translate tx ty => translate (f tx) (f ty)
  | rotate degrees => rotate (f degrees)

theorem Operation.map_id {K : Type} (op : Operation K) : op.map id = op := by
  cases op <;> rfl

namespace TransformText

section Reading

variable {K : Type} [Zero K] [One K] [Neg K] [Add K] [Mul K] [BEq K] [SelfEqualUnits K] [Reported K]

/-- What a text stands for in the arithmetic of `K`, its numbers being taken over by `value`. -/
def readIn (value : Binary64 → K) (direction : K → K × K) (s : String) :
    Except RejectedTerm (Except Fault (Transform K)) :=
  (operations s).map fun ops => composeOperations direction (ops.map (Operation.map value))

end Reading

theorem read_eq_readIn (s : String) : read s = readIn id Binary64.direction s := by
  have hmap : ∀ ops : List (Operation Binary64), ops.map (Operation.map id) = ops := fun ops => by
    rw [List.map_congr_left fun op _ => Operation.map_id op, List.map_id']
  simp only [read, readIn, hmap]
  rfl

end TransformText

section Exact

variable {K : Type} [CommRing K] [DecidableEq K] (direction : K → K × K)

theorem Operation.toTransform_apply (op : Operation K) (p : Point K) :
    (op.toTransform direction).apply p = op.act direction p := by
  cases op with
  | scale sx sy => exact Transform.apply_scaling sx sy p
  | translate tx ty => exact Transform.apply_translation tx ty p
  | rotate degrees => exact Transform.apply_turn (direction degrees).1 (direction degrees).2 p

theorem prod_apply (ops : List (Operation K)) (p : Point K) :
    ((ops.map (Operation.toTransform direction)).prod).apply p = actAll direction ops p := by
  induction ops with
  | nil => exact Transform.apply_one p
  | cons op ops ih =>
    rw [List.map_cons, List.prod_cons, Transform.apply_mul, ih, Operation.toTransform_apply]
    rfl

variable [Reported K]

theorem composeOperations_eq_prod (ops : List (Operation K)) :
    composeOperations direction ops = .ok (ops.map (Operation.toTransform direction)).prod := by
  induction ops with
  | nil => rfl
  | cons op ops ih =>
    rw [composeOperations_cons, ih, List.map_cons, List.prod_cons]
    exact Transform.after_eq_ok _ _

theorem exists_composed (ops : List (Operation K)) :
    ∃ t, composeOperations direction ops = .ok t ∧ ∀ p, t.apply p = actAll direction ops p :=
  ⟨_, composeOperations_eq_prod direction ops, prod_apply direction ops⟩

/-- **The last operation acts first**: the transform of a list of operations, and what a text of such operations
stands for, map every point by the operations one after another, from the last to the first. -/
theorem composed_apply_eq_actAll (value : Binary64 → K) :
    (∀ ops, ∃ t, composeOperations direction ops = .ok t ∧ ∀ p, t.apply p = actAll direction ops p) ∧
    (∀ s ops, TransformText.operations s = .ok ops → ∃ t, TransformText.readIn value direction s = .ok (.ok t) ∧
      ∀ p, t.apply p = actAll direction (ops.map (Operation.map value)) p) ∧
    ∀ s, TransformText.read s = TransformText.readIn id Binary64.direction s := by
  refine ⟨exists_composed direction, ?_, TransformText.read_eq_readIn⟩
  intro s ops hs
  obtain ⟨t, ht, happly⟩ := exists_composed direction (ops.map (Operation.map value))
  refine ⟨t, ?_, happly⟩
  rw [TransformText.readIn, hs]
  exact congrArg Except.ok ht

end Exact

/-- A quarter turn after a shift to the right, in whole numbers. -/
theorem quarter_turn_after_shift :
    TransformText.operations "R(90)*T(1,0)" = .ok [.rotate 90, .translate 1 0] ∧
    ∃ t, TransformText.readIn (fun x => x.floor?.getD 0) (fun _ => ((0 : Int), 1)) "R(90)*T(1,0)" = .ok (.ok t) ∧
      t.apply ⟨0, 0⟩ = ⟨0, 1⟩ := by
  have hs : TransformText.operations "R(90)*T(1,0)" = .ok [.rotate 90, .translate 1 0] := by decide +kernel
  obtain ⟨t, ht, happly⟩ :=
    (composed_apply_eq_actAll (fun _ => ((0 : Int), 1)) fun x => x.floor?.getD 0).2.1 _ _ hs
  refine ⟨hs, t, ht, ?_⟩
  rw [happly]
  decide +kernel

end PlaneSketch
