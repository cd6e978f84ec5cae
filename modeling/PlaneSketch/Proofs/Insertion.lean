import Mathlib.Logic.Relation

/-!
# Insertions into lists

`Insertion allowed` puts one element into a list where it is allowed, which may depend on the element and on what
stands before it. Its closures are any number of insertions, and any number of insertions and removals.

* `eq_of_insertions`: what no single insertion changes, any number of insertions and removals leave as it is.
* `insertions_of_forall`: a row of elements that are allowed anywhere is put in one by one.
-/

namespace PlaneSketch

open Relation

/-- One more element stands behind the elements `before`. -/
inductive Insertion {α : Type} (allowed : List α → α → Prop) : List α → List α → Prop
  | put {before after x} : allowed before x → Insertion allowed (before ++ after) (before ++ x :: after)

theorem eq_of_insertions {α β : Type} {allowed : List α → α → Prop} {f : List α → β}
    (hf : ∀ {before after x}, allowed before x → f (before ++ x :: after) = f (before ++ after)) {xs ys : List α}
    (h : EqvGen (Insertion allowed) xs ys) : f xs = f ys := by
  have hstep : ∀ xs ys, Insertion allowed xs ys → f xs = f ys := by
    rintro _ _ ⟨hx⟩
    exact (hf hx).symm
  exact congrArg (Quot.lift f hstep) (Quot.eqvGen_sound h)

theorem insertions_of_forall {α : Type} {P : α → Prop} {xs : List α} (hxs : ∀ x ∈ xs, P x) (before after : List α) :
    ReflTransGen (Insertion fun _ => P) (before ++ after) (before ++ xs ++ after) := by
  induction xs generalizing before with
  | nil => rw [List.append_nil]
  | cons x xs ih =>
    obtain ⟨hx, hxs⟩ := List.forall_mem_cons.mp hxs
    have hrest := ih hxs (before ++ [x])
    simp only [List.append_assoc, List.cons_append] at hrest ⊢
    exact .head (.put hx) hrest

end PlaneSketch
