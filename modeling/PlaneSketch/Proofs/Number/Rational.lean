import Mathlib.Data.Rat.Floor
import PlaneSketch.Number.Checked
import PlaneSketch.Proofs.Binary64.Special

/-!
# The exact values of numbers

Every number but the infinities and `nan` has a rational value. Comparisons with zero compare that value, and a sum
or a product of doubles that is finite comes from finite ones.

* `Number.isPositive_iff`, `Number.isBelowZero_iff`: signs.
* `Number.ceiling_eq_ok_iff`: ceilings.
* `Number.exists_rational_of_ceiling_add`: numbers whose sum has a ceiling have exact values.
-/

namespace PlaneSketch

namespace Binary64

/-- The exact value of a double that is finite. -/
def rational? : Binary64 → Option ℚ
  | finite s n _ => some ((if s then -(n : ℤ) else n : ℤ) / unitsPerOne)
  | _ => none

theorem cast_unitsPerOne_pos : (0 : ℚ) < unitsPerOne := Nat.cast_pos.mpr unitsPerOne_pos

theorem exists_rational_iff {x : Binary64} : (∃ q, x.rational? = some q) ↔ x.isFinite = true := by
  cases x <;> simp [rational?, isFinite]

theorem isFinite_of_add {x y : Binary64} (hsum : (x + y).isFinite = true) :
    x.isFinite = true ∧ y.isFinite = true := by
  cases x with
  | nan => cases y <;> cases hsum
  | infinite s =>
    cases y with
    | nan => cases hsum
    | infinite t =>
      have hne : (infinite s + infinite t).isFinite = false := by
        show (if s = t then infinite s else nan).isFinite = false
        split <;> rfl
      rw [hne] at hsum
      cases hsum
    | finite t n hn => cases hsum
  | finite s m hm =>
    cases y with
    | nan => cases hsum
    | infinite t => cases hsum
    | finite t n hn => exact ⟨rfl, rfl⟩

theorem isFinite_of_mul {x y : Binary64} (hproduct : (x * y).isFinite = true) : y.isFinite = true := by
  cases y with
  | nan => cases x <;> cases hproduct
  | infinite t =>
    cases x with
    | nan => cases hproduct
    | infinite s => cases hproduct
    | finite s m hm =>
      have hne : (finite s m hm * infinite t).isFinite = false := by
        show (if m = 0 then nan else infinite (s ^^ t)).isFinite = false
        split <;> rfl
      rw [hne] at hproduct
      cases hproduct
  | finite t n hn => rfl

end Binary64

namespace Number

/-- The exact value of a number that is finite. -/
def rational? : Number → Option ℚ
  | int i => some i
  | real x => x.rational?

variable {n : Number} {q : ℚ}

theorem units_of_rational (hq : n.rational? = some q) :
    ∃ u : ℤ, n.units? = some u ∧ q = u / (Binary64.unitsPerOne : ℚ) := by
  have hpos := Binary64.cast_unitsPerOne_pos.ne'
  cases n with
  | int i =>
    refine ⟨i * Binary64.unitsPerOne, rfl, ?_⟩
    rw [← Option.some.inj hq]
    push_cast
    rw [mul_div_cancel_right₀ _ hpos]
  | real x =>
    cases x with
    | nan => cases hq
    | infinite s => cases hq
    | finite s k hk => exact ⟨_, rfl, (Option.some.inj hq).symm⟩

theorem isPositive_iff (hq : n.rational? = some q) : n.isPositive = true ↔ 0 < q := by
  have hpos := Binary64.cast_unitsPerOne_pos
  obtain ⟨u, hu, rfl⟩ := units_of_rational hq
  rw [isPositive, hu, lt_div_iff₀ hpos, zero_mul, Int.cast_pos]
  simp

theorem isBelowZero_iff (hq : n.rational? = some q) : n.isBelowZero = true ↔ q < 0 := by
  have hpos := Binary64.cast_unitsPerOne_pos
  obtain ⟨u, hu, rfl⟩ := units_of_rational hq
  rw [isBelowZero, hu, div_lt_iff₀ hpos, zero_mul, Int.cast_lt_zero]
  simp

/-! ### Numbers whose sum has a ceiling -/

theorem exists_rational_of_toBinary64 {x : Binary64} (hn : n.toBinary64? = some x) (hx : x.isFinite = true) :
    ∃ q, n.rational? = some q := by
  cases n with
  | int i => exact ⟨i, rfl⟩
  | real y =>
    cases hn
    exact Binary64.exists_rational_iff.mpr hx

theorem exists_rational_of_double (hq : n.double.rational? = some q) : ∃ r, n.rational? = some r := by
  cases n with
  | int i => exact ⟨i, rfl⟩
  | real x =>
    have hfin : (2 * x).isFinite = true := Binary64.exists_rational_iff.mp ⟨q, hq⟩
    exact Binary64.exists_rational_iff.mpr (Binary64.isFinite_of_mul hfin)

/-- A number has a ceiling exactly if it has an exact value, of which it is the ceiling. -/
theorem ceiling_eq_ok_iff {i : ℤ} : n.ceiling = .ok i ↔ ∃ q, n.rational? = some q ∧ i = ⌈q⌉ := by
  cases n with
  | int j => simp [ceiling, rational?, eq_comm]
  | real x =>
    cases x with
    | nan => simp [ceiling, Binary64.ceil?, rational?, Binary64.rational?]
    | infinite s => simp [ceiling, Binary64.ceil?, rational?, Binary64.rational?]
    | finite s k hk =>
      have hneg : (if s then (k : ℤ) else -k) = -(if s then -(k : ℤ) else k) := by cases s <;> simp
      have hceil : ⌈((if s then -(k : ℤ) else k : ℤ) / (Binary64.unitsPerOne : ℕ) : ℚ)⌉ =
          -((if s then (k : ℤ) else -k) / Binary64.unitsPerOne) := by
        rw [← neg_neg (_ / _ : ℚ), Int.ceil_neg, ← neg_div, ← Int.cast_neg, Rat.floor_intCast_div_natCast, hneg]
      simp only [ceiling, Binary64.ceil?, rational?, Binary64.rational?, Option.some.injEq, exists_eq_left', hceil,
        Except.ok.injEq]
      exact eq_comm

theorem isFinite_of_ceiling {x : Binary64} {i : Int} (hceiling : (real x).ceiling = .ok i) : x.isFinite = true := by
  cases x with
  | nan => cases hceiling
  | infinite s => cases hceiling
  | finite s u hu => rfl

/-- Two numbers that can be added are integers, or their sum is that of two doubles. -/
theorem cases_of_add {m n k : Number} (hadd : m.add n = .ok k) :
    (∃ i j, m = int i ∧ n = int j) ∨
      ∃ x y, m.toBinary64? = some x ∧ n.toBinary64? = some y ∧ k = real (x + y) := by
  by_cases hints : ∃ i j, m = int i ∧ n = int j
  · exact .inl hints
  refine .inr ?_
  have hsome : m.add? n = some k := by
    unfold add at hadd
    split at hadd
    · rename_i l hsum
      rw [hsum, Except.ok.inj hadd]
    · cases hadd
  rw [add?] at hsome
  · split at hsome
    · rename_i x y hx hy
      exact ⟨x, y, hx, hy, (Option.some.inj hsome).symm⟩
    · cases hsome
  · exact fun i j hm hn => hints ⟨i, j, hm, hn⟩

/-- Numbers whose sum has a ceiling have exact values. -/
theorem exists_rational_of_ceiling_add {m k : Number} {i : Int} (hadd : m.add n = .ok k)
    (hceiling : k.ceiling = .ok i) : (∃ q, m.rational? = some q) ∧ ∃ q, n.rational? = some q := by
  rcases cases_of_add hadd with ⟨i, j, rfl, rfl⟩ | ⟨x, y, hx, hy, rfl⟩
  · exact ⟨⟨i, rfl⟩, j, rfl⟩
  · obtain ⟨hxfin, hyfin⟩ := Binary64.isFinite_of_add (isFinite_of_ceiling hceiling)
    exact ⟨exists_rational_of_toBinary64 hx hxfin, exists_rational_of_toBinary64 hy hyfin⟩

end Number

end PlaneSketch
