import PlaneSketch.Binary64.Arith

/-!
# Zeros, one, infinities and `nan` in arithmetic

How the special values pass through sums and products: `nan` absorbs everything, a zero makes a zero of every
finite factor and `nan` of every other one, and a zero leaves every other term of a sum as it is.

* `beq_zero_iff`, `beq_one_iff`: what is equal to zero or one in value.
* `IsZero.mul`, `IsZero.mul_eq_nan`: products with a zero.
* `IsZero.add`, `IsZero.add_eq`: sums with a zero.
* `one_mul`: one leaves every factor as it is.
* `mul_comm`: factors commute.
-/

namespace PlaneSketch

theorem nearest_zero (d : Nat) : nearest 0 d = 0 := by
  unfold nearest
  simp

/-- Rounding a quotient depends on the quotient alone. -/
theorem nearest_mul_left {k : Nat} (hk : 0 < k) (n d : Nat) : nearest (k * n) (k * d) = nearest n d := by
  have hlow : 2 * (k * (n % d)) < k * d ↔ 2 * (n % d) < d := by
    rw [Nat.mul_left_comm, Nat.mul_lt_mul_left hk]
  have hhigh : k * d < 2 * (k * (n % d)) ↔ d < 2 * (n % d) := by
    rw [Nat.mul_left_comm, Nat.mul_lt_mul_left hk]
  simp only [nearest, Nat.mul_div_mul_left _ _ hk, Nat.mul_mod_mul_left, hlow, hhigh]

namespace Precision

variable (p : Precision)

theorem round_zero (d : Nat) : p.round 0 d = 0 := by
  simp [round, nearest_zero]

theorem round_mul_left {k : Nat} (hk : 0 < k) (n d : Nat) : p.round (k * n) (k * d) = p.round n d := by
  simp only [round, Nat.mul_div_mul_left _ _ hk, Nat.mul_assoc, nearest_mul_left hk]

end Precision

namespace Binary64

theorem fitsDouble_unitsPerOne : FitsDouble unitsPerOne := ⟨by decide +kernel, by decide +kernel⟩

/-- A zero of either sign. -/
def IsZero : Binary64 → Prop
  | finite _ n _ => n = 0
  | _ => False

theorem isZero_ofRatio_zero (s : Bool) (d : Nat) : IsZero (ofRatio s 0 d) := by
  simp [ofRatio, Precision.round_zero, Precision.limit_pos, IsZero]

theorem isZero_zero : IsZero 0 := by
  have h : (0 : Binary64) = ofRatio false (0 * unitsPerOne) 1 := rfl
  rw [h, Nat.zero_mul]
  exact isZero_ofRatio_zero false 1

theorem finite_add_finite {s t : Bool} {m n : Nat} (hm : FitsDouble m) (hn : FitsDouble n) :
    finite s m hm + finite t n hn =
      let sum : Int := (if s then -(m : Int) else m) + (if t then -(n : Int) else n)
      if sum = 0 then ofRatio (s && t) 0 1 else ofRatio (sum < 0) sum.natAbs 1 := rfl

theorem finite_mul_finite {s t : Bool} {m n : Nat} (hm : FitsDouble m) (hn : FitsDouble n) :
    finite s m hm * finite t n hn = ofRatio (s ^^ t) (m * n) unitsPerOne := rfl

theorem ofRatio_mul_left {k : Nat} (hk : 0 < k) (s : Bool) (n d : Nat) :
    ofRatio s (k * n) (k * d) = ofRatio s n d := by
  simp only [ofRatio, Precision.round_mul_left _ hk]

/-! ### Equality in value -/

theorem one_eq : (1 : Binary64) = finite false unitsPerOne fitsDouble_unitsPerOne := by
  have h : (1 : Binary64) = ofRatio false (1 * unitsPerOne) 1 := rfl
  rw [h, Nat.one_mul, ofRatio_fits]

theorem not_isZero_one : ¬ IsZero 1 := by
  rw [one_eq]
  exact Nat.ne_of_gt unitsPerOne_pos

theorem beq_iff {x y : Binary64} : (x == y) = true ↔ ∃ u, x.units? = some u ∧ y.units? = some u := by
  show compareBy (fun a b => a == b) x y = true ↔ _
  unfold compareBy
  cases x.units? with
  | none => simp
  | some a =>
    cases y.units? with
    | none => simp
    | some b =>
      simp only [beq_iff_eq, Option.some.injEq, exists_eq_left']
      exact eq_comm

protected theorem beq_comm (x y : Binary64) : (x == y) = (y == x) := by
  rw [Bool.eq_iff_iff, beq_iff, beq_iff]
  simp only [and_comm]

theorem units?_eq_zero_iff {x : Binary64} : x.units? = some 0 ↔ IsZero x := by
  have hlimit := Precision.double.limit_pos
  cases x with
  | nan => simp [units?, IsZero]
  | infinite s =>
    simp only [units?, Option.some.injEq, IsZero, iff_false]
    split <;> omega
  | finite s n hn =>
    simp only [units?, Option.some.injEq, IsZero]
    split <;> omega

theorem units?_eq_one_iff {x : Binary64} : x.units? = some (unitsPerOne : Int) ↔ x = 1 := by
  have hpos := unitsPerOne_pos
  have hlimit := fitsDouble_unitsPerOne.below
  rw [one_eq]
  cases x with
  | nan => simp [units?]
  | infinite s =>
    simp only [units?, Option.some.injEq, reduceCtorEq, iff_false]
    split <;> omega
  | finite s n hn =>
    simp only [units?, Option.some.injEq, finite.injEq]
    cases s with
    | false =>
      simp only [Bool.false_eq_true, if_false, true_and]
      omega
    | true =>
      simp only [if_true, Bool.true_eq_false, false_and, iff_false]
      omega

theorem beq_zero_iff {x : Binary64} : (x == 0) = true ↔ IsZero x := by
  rw [beq_iff, units?_eq_zero_iff.mpr isZero_zero, ← units?_eq_zero_iff]
  simp

theorem beq_one_iff {x : Binary64} : (x == 1) = true ↔ x = 1 := by
  rw [beq_iff, units?_eq_one_iff.mpr rfl, ← units?_eq_one_iff]
  simp

/-! ### Absorption -/

@[simp] theorem nan_add (x : Binary64) : nan + x = nan := by
  cases x <;> rfl

@[simp] theorem add_nan (x : Binary64) : x + nan = nan := by
  cases x <;> rfl

theorem IsZero.mul {x y : Binary64} (hx : IsZero x) (hy : y.isFinite = true) : IsZero (x * y) := by
  cases x with
  | nan => exact hx.elim
  | infinite s => exact hx.elim
  | finite s m hm =>
    cases y with
    | nan => simp [isFinite] at hy
    | infinite t => simp [isFinite] at hy
    | finite t n hn =>
      have hm0 : m = 0 := hx
      rw [finite_mul_finite, hm0, Nat.zero_mul]
      exact isZero_ofRatio_zero _ _

theorem IsZero.mul_eq_nan {x y : Binary64} (hx : IsZero x) (hy : y.isFinite = false) : x * y = nan := by
  cases x with
  | nan => exact hx.elim
  | infinite s => exact hx.elim
  | finite s m hm =>
    cases y with
    | nan => rfl
    | infinite t => exact if_pos hx
    | finite t n hn => simp [isFinite] at hy

theorem IsZero.add {x y : Binary64} (hx : IsZero x) (hy : IsZero y) : IsZero (x + y) := by
  cases x with
  | nan => exact hx.elim
  | infinite s => exact hx.elim
  | finite s m hm =>
    cases y with
    | nan => exact hy.elim
    | infinite t => exact hy.elim
    | finite t n hn =>
      have hm0 : m = 0 := hx
      have hn0 : n = 0 := hy
      rw [finite_add_finite]
      simp only [hm0, hn0]
      simp [isZero_ofRatio_zero]

theorem one_mul (x : Binary64) : 1 * x = x := by
  have hpos := unitsPerOne_pos
  rw [one_eq]
  cases x with
  | nan => rfl
  | infinite t =>
    show (if unitsPerOne = 0 then nan else infinite (false ^^ t)) = infinite t
    rw [if_neg (Nat.ne_of_gt hpos), Bool.false_xor]
  | finite t n hn =>
    rw [finite_mul_finite, Bool.false_xor]
    calc ofRatio t (unitsPerOne * n) unitsPerOne
        = ofRatio t (unitsPerOne * n) (unitsPerOne * 1) := by rw [Nat.mul_one]
      _ = ofRatio t n 1 := ofRatio_mul_left hpos t n 1
      _ = finite t n hn := ofRatio_fits t hn

/-- Factors commute, also where one of them is not finite. -/
protected theorem mul_comm (x y : Binary64) : x * y = y * x := by
  cases x with
  | nan => cases y <;> rfl
  | infinite s =>
    cases y with
    | nan => rfl
    | infinite t => exact congrArg infinite (Bool.xor_comm s t)
    | finite t n hn =>
      show (if n = 0 then nan else infinite (s ^^ t)) = if n = 0 then nan else infinite (t ^^ s)
      rw [Bool.xor_comm]
  | finite s m hm =>
    cases y with
    | nan => rfl
    | infinite t =>
      show (if m = 0 then nan else infinite (s ^^ t)) = if m = 0 then nan else infinite (t ^^ s)
      rw [Bool.xor_comm]
    | finite t n hn => rw [finite_mul_finite, finite_mul_finite, Bool.xor_comm, Nat.mul_comm]

/-- A zero leaves every other term as it is. -/
theorem IsZero.add_eq {x y : Binary64} (hx : IsZero x) (hy : ¬ IsZero y) : x + y = y := by
  cases x with
  | nan => exact hx.elim
  | infinite s => exact hx.elim
  | finite s m hm =>
    cases y with
    | nan => rfl
    | infinite t => rfl
    | finite t n hn =>
      have hm0 : m = 0 := hx
      have hn0 : n ≠ 0 := hy
      rw [finite_add_finite]
      simp only [hm0]
      cases t <;> simp [hn0, Nat.pos_of_ne_zero hn0, ofRatio_fits _ hn]

end Binary64

end PlaneSketch
