import PlaneSketch.Proofs.Binary64.Enclosure
import PlaneSketch.Proofs.Binary64.Nearest

/-!
# Narrowing to single precision

Narrowing acts on counts of units as a monotone function of their magnitudes, the infinities included. So whatever is
known of its values at two doubles holds for all doubles between them. Half of the least positive single precision
number is still rounded to zero; everything above it is not.

* `toSingle_mono`: narrowing keeps the order.
* `toSingle_pos_iff`, `toSingle_nonneg_iff`: the doubles whose sign is kept.
* `narrows_iff`: narrowing finds the nearest single precision number.
-/

namespace PlaneSketch.Binary64

variable {x y : Binary64}

/-! ### Units -/

/-- What narrowing makes of a number of units. -/
def singleMagnitude (n : ℕ) : ℕ :=
  if Precision.single.round n 1 < Precision.single.limit then Precision.single.round n 1 else Precision.double.limit

theorem singleMagnitude_mono : Monotone singleMagnitude := by
  intro m n hmn
  have hround : Precision.single.round m 1 ≤ Precision.single.round n 1 :=
    Precision.single.monotone_round Nat.one_pos hmn
  have hlimit : Precision.single.limit < Precision.double.limit := Precision.limit_lt_limit (by decide)
  unfold singleMagnitude
  split_ifs <;> omega

theorem singleMagnitude_zero : singleMagnitude 0 = 0 := by
  unfold singleMagnitude
  rw [Precision.round_zero, if_pos Precision.single.limit_pos]

theorem singleMagnitude_limit : singleMagnitude Precision.double.limit = Precision.double.limit := by
  have hover : ¬ Precision.single.round Precision.double.limit 1 < Precision.single.limit := by decide +kernel
  exact if_neg hover

/-- The units of a narrowed double. -/
theorem units_toSingle (x : Binary64) : x.toSingle.units? = x.units?.map (onMagnitude singleMagnitude) := by
  cases x with
  | nan => rfl
  | infinite s =>
    rw [toSingle, units?, Option.map_some, onMagnitude_signed singleMagnitude_zero, singleMagnitude_limit]
  | finite s n h =>
    rw [units?, Option.map_some, onMagnitude_signed singleMagnitude_zero, toSingle, singleMagnitude]
    split <;> rfl

/-! ### Order -/

/-- **Narrowing keeps the order.** -/
theorem toSingle_mono (h : x ≤ y) : x.toSingle ≤ y.toSingle := by
  obtain ⟨i, j, hi, hj, hij⟩ := le_iff_exists_units.mp h
  refine le_iff_exists_units.mpr ⟨_, _, ?_, ?_, onMagnitude_mono singleMagnitude_mono hij⟩
  · rw [units_toSingle, hi, Option.map_some]
  · rw [units_toSingle, hj, Option.map_some]

/-! ### Signs -/

/-- Half of the least positive single precision number. -/
def halfLeastSingle : Binary64 := ofFraction 1 (2 ^ 150)

/-- The units of that half. -/
@[irreducible] def halfLeastUnits : ℕ := Nat.pow 2 924

theorem units_halfLeastSingle : halfLeastSingle.units? = some (halfLeastUnits : ℤ) := by decide +kernel

theorem units_neg_halfLeastSingle : (-halfLeastSingle).units? = some (-(halfLeastUnits : ℤ)) := by decide +kernel

theorem units_zero : (0 : Binary64).units? = some 0 := by decide +kernel

/-- The half itself is a tie, which goes to the even side. -/
theorem singleMagnitude_pos_iff {n : ℕ} : 0 < singleMagnitude n ↔ halfLeastUnits < n := by
  have htie : singleMagnitude halfLeastUnits = 0 := by decide +kernel
  have habove : 0 < singleMagnitude (halfLeastUnits + 1) := by decide +kernel
  constructor
  · intro hpos
    by_contra hle
    have := singleMagnitude_mono (not_lt.mp hle)
    omega
  · intro hlt
    exact habove.trans_le (singleMagnitude_mono hlt)

theorem onMagnitude_pos_iff {u : ℤ} : 0 < onMagnitude singleMagnitude u ↔ (halfLeastUnits : ℤ) < u := by
  have hpos := singleMagnitude_pos_iff (n := u.natAbs)
  unfold onMagnitude
  split_ifs <;> omega

theorem onMagnitude_nonneg_iff {u : ℤ} : 0 ≤ onMagnitude singleMagnitude u ↔ -(halfLeastUnits : ℤ) ≤ u := by
  have hpos := singleMagnitude_pos_iff (n := u.natAbs)
  unfold onMagnitude
  split_ifs <;> omega

/-- The doubles that stay positive. -/
theorem toSingle_pos_iff : 0 < x.toSingle ↔ halfLeastSingle < x := by
  simp only [lt_iff_exists_units, units_zero, units_halfLeastSingle, units_toSingle, Option.some.injEq,
    exists_eq_left', exists_and_left]
  cases x.units? <;> simp [onMagnitude_pos_iff]

/-- The doubles that do not become negative. -/
theorem toSingle_nonneg_iff : 0 ≤ x.toSingle ↔ -halfLeastSingle ≤ x := by
  simp only [le_iff_exists_units, units_zero, units_neg_halfLeastSingle, units_toSingle, Option.some.injEq,
    exists_eq_left', exists_and_left]
  cases x.units? <;> simp [onMagnitude_nonneg_iff]

/-! ### The nearest single precision number -/

/-- `y` is what a double `x` is in single precision: the nearest floating number of 24 digits, of two equally near ones
the one with the even significand, with the sign of `x`; it is infinite from the point on that is half-way between the
greatest of them and `2 ^ 128`. -/
inductive Narrows : Binary64 → Binary64 → Prop
  | nan : Narrows nan nan
  | infinite (s : Bool) : Narrows (infinite s) (infinite s)
  | overflow {x : Binary64} {q : ℚ} (hx : x.rational? = some q) (hrange : 2 ^ 128 - 2 ^ 103 ≤ |q|) :
    Narrows x (.infinite x.isNegative)
  | nearest {x y : Binary64} {q v : ℚ} (hx : x.rational? = some q) (hy : y.rational? = some v)
    (hrange : |q| < 2 ^ 128 - 2 ^ 103) (hnearest : IsNearestIn (floats 24 (-149) 128) (floats 23 (-148) 128) v q)
    (hsign : y.isNegative = x.isNegative) : Narrows x y

theorem round_single_lt_limit_iff {n : ℕ} :
    Precision.single.round n 1 < Precision.single.limit ↔ (n / unitsPerOne : ℚ) < 2 ^ 128 - 2 ^ 103 := by
  have hhalf : (2 ^ 128 - 2 ^ 103 : ℚ) = (2 ^ 128 - 2 ^ 103 : ℕ) := by norm_num
  rw [Precision.single.round_lt_limit_iff ((2 ^ 128 - 2 ^ 104) * unitsPerOne) ((2 ^ 128 - 2 ^ 103) * unitsPerOne)
    (by decide +kernel) (by decide +kernel) (by decide +kernel) (by decide +kernel) Nat.one_pos,
    div_lt_iff₀ cast_unitsPerOne_pos, hhalf]
  norm_cast
  rw [Nat.mul_one]

theorem abs_signed_div (s : Bool) (n : ℕ) :
    |((if s then -(n : ℤ) else n : ℤ) / unitsPerOne : ℚ)| = n / unitsPerOne := by
  have hnonneg : (0 : ℚ) ≤ n / unitsPerOne := div_nonneg (Nat.cast_nonneg n) cast_unitsPerOne_pos.le
  cases s
  · simpa using abs_of_nonneg hnonneg
  · simpa [neg_div] using abs_of_nonneg hnonneg

theorem isNearestIn_single {n : ℕ} (hlt : Precision.single.round n 1 < Precision.single.limit) (s : Bool) :
    IsNearestIn (floats 24 (-149) 128) (floats 23 (-148) 128)
      ((if s then -(Precision.single.round n 1 : ℤ) else Precision.single.round n 1 : ℤ) / unitsPerOne)
      ((if s then -(n : ℤ) else n : ℤ) / unitsPerOne) := by
  have hnear : IsNearestIn (floats 24 (-149) 128) (floats 23 (-148) 128)
      (Precision.single.round n 1 / unitsPerOne) (n / unitsPerOne) := by
    have hround := Precision.single.isNearestIn_round (show _ = 128 + 1074 from rfl) rfl (by decide) Nat.one_pos hlt
    rw [cast_unitsPerOne]
    rwa [Nat.cast_one, MulOneClass.one_mul] at hround
  cases s with
  | false => simpa using hnear
  | true => simpa [neg_div] using hnear.neg (fun _ => neg_mem_floats) fun _ => neg_mem_floats

theorem narrows_toSingle (x : Binary64) : Narrows x x.toSingle := by
  cases x with
  | nan => exact .nan
  | infinite s => exact .infinite s
  | finite s n h =>
    by_cases hlt : Precision.single.round n 1 < Precision.single.limit
    · have htoSingle : (finite s n h).toSingle = finite s (Precision.single.round n 1)
          (fitsDouble_of_single (Precision.single.round_aligned n 1) hlt) := dif_pos hlt
      rw [htoSingle]
      refine .nearest rfl rfl ?_ (isNearestIn_single hlt s) rfl
      rw [abs_signed_div]
      exact round_single_lt_limit_iff.mp hlt
    · have htoSingle : (finite s n h).toSingle = .infinite s := dif_neg hlt
      rw [htoSingle]
      refine .overflow (x := finite s n h) rfl ?_
      rw [abs_signed_div]
      exact not_lt.mp (round_single_lt_limit_iff.not.mp hlt)

theorem Narrows.unique {z : Binary64} (hy : Narrows x y) (hz : Narrows x z) : y = z := by
  cases hy with
  | nan => cases hz with
    | nan => rfl
    | overflow hx => cases hx
    | nearest hx => cases hx
  | infinite s => cases hz with
    | infinite => rfl
    | overflow hx => cases hx
    | nearest hx => cases hx
  | overflow hx hrange => cases hz with
    | nan => cases hx
    | infinite s => cases hx
    | overflow => rfl
    | nearest hx' hz hrange' =>
      obtain rfl := Option.some.inj (hx.symm.trans hx')
      exact absurd hrange' (not_lt.mpr hrange)
  | nearest hx hy hrange hnearest hsign => cases hz with
    | nan => cases hx
    | infinite s => cases hx
    | overflow hx' hrange' =>
      obtain rfl := Option.some.inj (hx.symm.trans hx')
      exact absurd hrange (not_lt.mpr hrange')
    | nearest hx' hz hrange' hnearest' hsign' =>
      obtain rfl := Option.some.inj (hx.symm.trans hx')
      obtain rfl := hnearest.unique_float hnearest'
      exact eq_of_rational?_eq hy hz (hsign.trans hsign'.symm)

/-- **Narrowing** finds the nearest single precision number. -/
theorem narrows_iff : Narrows x y ↔ y = x.toSingle :=
  ⟨fun h => h.unique (narrows_toSingle x), fun h => h ▸ narrows_toSingle x⟩

end PlaneSketch.Binary64
