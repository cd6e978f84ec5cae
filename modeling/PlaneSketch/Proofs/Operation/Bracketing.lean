import PlaneSketch.Proofs.Operation.Meaning

/-!
# Three ways to compose operations

A list of operations can be composed from its last element on, each further operation being put after the others; it
can be chained, starting from the identity and putting each operation in front of the transform so far; or the
transforms of its elements can be multiplied two by two, in any arrangement of parentheses. Over a ring all of them
give one transform, the product of the elements.

* `foldlM_chain`: chaining onto any transform multiplies it by the product from the right.
* `Bracketing.product_eq_prod`: parentheses do not matter.
* `compositions_agree`: the three ways give the same transform.
-/

namespace PlaneSketch

/-- A row of at least one thing with parentheses that join neighbours two by two. -/
inductive Bracketing (α : Type) where
  | single (x : α)
  | pair (left right : Bracketing α)

namespace Bracketing

/-- The things in order, without the parentheses. -/
def members {α : Type} : Bracketing α → List α
  | single x => [x]
  | pair left right => left.members ++ right.members

end Bracketing

section Ways

variable {K : Type} [Zero K] [One K] [BEq K] [SelfEqualUnits K] [Add K] [Mul K] [Neg K] [Reported K]

/-- The product of the transforms of operations, multiplied as the parentheses say. -/
def Bracketing.product (direction : K → K × K) : Bracketing (Operation K) → Except Fault (Transform K)
  | single op => .ok (op.toTransform direction)
  | pair left right => do (← left.product direction).after (← right.product direction)

/-- The transform that an operation and then `t` make. -/
def Transform.chain (direction : K → K × K) (t : Transform K) : Operation K → Except Fault (Transform K)
  | .scale sx sy => t.scale sx sy
  | .translate tx ty => t.translate tx ty
  | .rotate degrees => t.rotate (direction degrees).1 (direction degrees).2

/-- The transform of operations that are chained onto the identity, the first one at the start. -/
def chainOperations (direction : K → K × K) (ops : List (Operation K)) : Except Fault (Transform K) :=
  ops.foldlM (Transform.chain direction) Transform.identity

theorem Transform.chain_eq_after (direction : K → K × K) (t : Transform K) (op : Operation K) :
    t.chain direction op = t.after (op.toTransform direction) := by
  cases op <;> rfl

end Ways

section Exact

variable {K : Type} [CommRing K] [DecidableEq K] [Reported K] (direction : K → K × K)

/-- Chaining multiplies from the right, so the start may be any transform. -/
theorem foldlM_chain (t : Transform K) (ops : List (Operation K)) :
    ops.foldlM (Transform.chain direction) t = .ok (t * (ops.map (Operation.toTransform direction)).prod) := by
  induction ops generalizing t with
  | nil => rw [List.map_nil, List.prod_nil, mul_one]; rfl
  | cons op ops ih =>
    rw [List.foldlM_cons, Transform.chain_eq_after, Transform.after_eq_ok, List.map_cons, List.prod_cons, ← mul_assoc]
    exact ih (t * op.toTransform direction)

theorem chainOperations_eq_prod (ops : List (Operation K)) :
    chainOperations direction ops = .ok (ops.map (Operation.toTransform direction)).prod := by
  rw [chainOperations, foldlM_chain, ← Transform.one_eq_identity, one_mul]

/-- Parentheses do not matter. -/
theorem Bracketing.product_eq_prod (b : Bracketing (Operation K)) :
    b.product direction = .ok (b.members.map (Operation.toTransform direction)).prod := by
  induction b with
  | single op => rw [members, List.map_singleton, List.prod_singleton]; rfl
  | pair left right ihl ihr =>
    rw [members, List.map_append, List.prod_append, product, ihl, ihr]
    exact Transform.after_eq_ok _ _

/-- **All ways to compose agree**: a list of operations composed from its last element on, chained from its first
element on, and multiplied in any arrangement of parentheses is one and the same transform. -/
theorem compositions_agree (ops : List (Operation K)) :
    ∃ t, composeOperations direction ops = .ok t ∧ chainOperations direction ops = .ok t ∧
      ∀ b : Bracketing (Operation K), b.members = ops → b.product direction = .ok t := by
  refine ⟨_, composeOperations_eq_prod direction ops, chainOperations_eq_prod direction ops, ?_⟩
  rintro b rfl
  exact b.product_eq_prod direction

end Exact

/-- Both arrangements of a quarter turn, a shift and a stretch, in whole numbers. -/
theorem turn_shift_stretch_agree :
    ∃ t : Transform ℤ, t.apply ⟨1, 1⟩ = ⟨-3, 3⟩ ∧
      composeOperations (fun _ => (0, 1)) [.rotate 90, .translate 1 0, .scale 2 3] = .ok t ∧
      chainOperations (fun _ => (0, 1)) [.rotate 90, .translate 1 0, .scale 2 3] = .ok t ∧
      (Bracketing.pair (.pair (.single (.rotate 90)) (.single (.translate 1 0))) (.single (.scale 2 3))).product
        (fun _ => (0, 1)) = .ok t ∧
      (Bracketing.pair (.single (.rotate 90)) (.pair (.single (.translate 1 0)) (.single (.scale 2 3)))).product
        (fun _ => (0, 1)) = .ok t := by
  obtain ⟨t, hcompose, hchain, hproduct⟩ :=
    compositions_agree (fun _ => ((0 : ℤ), 1)) [.rotate 90, .translate 1 0, .scale 2 3]
  refine ⟨t, ?_, hcompose, hchain, hproduct _ rfl, hproduct _ rfl⟩
  cases hcompose
  decide

end PlaneSketch
