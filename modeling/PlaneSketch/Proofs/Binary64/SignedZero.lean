import PlaneSketch.Proofs.Binary64.Order
import PlaneSketch.Transform.Double

/-!
# The sign of zero

Doubles that are equal in value are the same datum or two zeros. Products keep this likeness, and a sum does not
depend on the sign of a zero that is added, unless what it is added to is a negative zero itself. A sum is a negative
zero only if both terms are: a sum that is not exactly zero never rounds to zero.

* `beq_iff_alike`: equality in value is likeness of numbers that are not `nan`.
* `Alike.mul`, `Alike.add_left`: how products and sums take like operands.
* `add_ne_negZero`: a sum from anything but a negative zero is no negative zero.
* `Alike.toSixPlaces_eq`, `Alike.fingerprint_eq`: like doubles are written alike and share their fingerprint.
-/

namespace PlaneSketch.Binary64

variable {x y z : Binary64}

/-! ### The two zeros -/

theorem fitsDouble_zero : FitsDouble 0 := ⟨Nat.dvd_zero _, Precision.double.limit_pos⟩

theorem zero_eq : (0 : Binary64) = finite false 0 fitsDouble_zero := by
  have h : (0 : Binary64) = ofRatio false (0 * unitsPerOne) 1 := rfl
  rw [h, Nat.zero_mul, ofRatio_fits]

theorem negZero_eq : negZero = finite true 0 fitsDouble_zero := ofRatio_fits true fitsDouble_zero

theorem zero_ne_negZero : (0 : Binary64) ≠ negZero := by
  rw [zero_eq, negZero_eq]
  simp

theorem exists_sign_of_isZero (hx : IsZero x) : ∃ s, x = finite s 0 fitsDouble_zero := by
  cases x with
  | nan => exact hx.elim
  | infinite s => exact hx.elim
  | finite s n hn =>
    obtain rfl : n = 0 := hx
    exact ⟨s, rfl⟩

theorem isZero_iff : IsZero x ↔ x = 0 ∨ x = negZero := by
  rw [zero_eq, negZero_eq]
  constructor
  · intro hx
    obtain ⟨s, rfl⟩ := exists_sign_of_isZero hx
    cases s with
    | false => exact .inl rfl
    | true => exact .inr rfl
  · rintro (rfl | rfl) <;> rfl

theorem isZero_negZero : IsZero negZero := isZero_iff.mpr (.inr rfl)

theorem IsZero.neg (hx : IsZero x) : IsZero (-x) := by
  obtain ⟨s, rfl⟩ := exists_sign_of_isZero hx
  rfl

/-! ### Finite numbers -/

theorem isFinite_one : (1 : Binary64).isFinite = true := by
  rw [one_eq]
  rfl

theorem isFinite_neg (x : Binary64) : (-x).isFinite = x.isFinite := by
  cases x <;> rfl

theorem isFinite_of_isZero (hx : IsZero x) : x.isFinite = true := by
  obtain ⟨s, rfl⟩ := exists_sign_of_isZero hx
  rfl

theorem ne_nan_of_isFinite (hx : x.isFinite = true) : x ≠ nan := by
  rintro rfl
  cases hx

/-! ### Likeness -/

/-- The same double, or two zeros of whatever signs. -/
def Alike (x y : Binary64) : Prop := x = y ∨ (IsZero x ∧ IsZero y)

theorem Alike.refl (x : Binary64) : Alike x x := .inl rfl

theorem Alike.symm (h : Alike x y) : Alike y x := h.imp Eq.symm And.symm

theorem Alike.trans (hxy : Alike x y) (hyz : Alike y z) : Alike x z := by
  rcases hxy with rfl | ⟨hx, hy⟩
  · exact hyz
  · rcases hyz with rfl | ⟨-, hz⟩
    · exact .inr ⟨hx, hy⟩
    · exact .inr ⟨hx, hz⟩

instance : Trans Alike Alike Alike := ⟨Alike.trans⟩

theorem Alike.isFinite_eq (h : Alike x y) : x.isFinite = y.isFinite := by
  rcases h with rfl | ⟨hx, hy⟩
  · rfl
  · rw [isFinite_of_isZero hx, isFinite_of_isZero hy]

/-- A sign and a magnitude other than zero are found again in an integer. -/
theorem sign_eq_of_ne_zero {s t : Bool} {m n : Nat} (h : (if s then -(m : Int) else m) = if t then -(n : Int) else n)
    (hne : (if s then -(m : Int) else m) ≠ 0) : s = t ∧ m = n := by
  cases s <;> cases t <;> simp only [Bool.false_eq_true, if_true, if_false] at h hne <;> simp <;> omega

/-- A value other than zero has only one datum: an infinity stands outside the finite range. -/
theorem eq_of_units?_eq {u : Int} (hx : x.units? = some u) (hy : y.units? = some u) (hu : u ≠ 0) : x = y := by
  cases x with
  | nan => cases hx
  | infinite s =>
    obtain rfl := Option.some.inj hx
    cases y with
    | nan => cases hy
    | infinite t => rw [(sign_eq_of_ne_zero (Option.some.inj hy).symm hu).1]
    | finite t n hn => exact absurd (sign_eq_of_ne_zero (Option.some.inj hy).symm hu).2 hn.below.ne'
  | finite s m hm =>
    obtain rfl := Option.some.inj hx
    cases y with
    | nan => cases hy
    | infinite t => exact absurd (sign_eq_of_ne_zero (Option.some.inj hy).symm hu).2 hm.below.ne
    | finite t n hn =>
      obtain ⟨rfl, rfl⟩ := sign_eq_of_ne_zero (Option.some.inj hy).symm hu
      rfl

/-- **Equality in value** is likeness of numbers that are not `nan`. -/
theorem beq_iff_alike : (x == y) = true ↔ Alike x y ∧ x ≠ nan := by
  rw [beq_iff]
  constructor
  · rintro ⟨u, hx, hy⟩
    refine ⟨?_, ?_⟩
    · by_cases hu : u = 0
      · subst hu
        exact .inr ⟨units?_eq_zero_iff.mp hx, units?_eq_zero_iff.mp hy⟩
      · exact .inl (eq_of_units?_eq hx hy hu)
    · rintro rfl
      cases hx
  · rintro ⟨rfl | ⟨hx, hy⟩, hnan⟩
    · cases x with
      | nan => exact absurd rfl hnan
      | infinite s => exact ⟨_, rfl, rfl⟩
      | finite s n hn => exact ⟨_, rfl, rfl⟩
    · exact ⟨0, units?_eq_zero_iff.mpr hx, units?_eq_zero_iff.mpr hy⟩

theorem beq_of_alike (h : Alike x y) (hy : y.isFinite = true) : (x == y) = true :=
  beq_iff_alike.mpr ⟨h, ne_nan_of_isFinite (h.isFinite_eq.trans hy)⟩

/-! ### Products and sums -/

theorem Alike.mul (h : Alike x y) (z : Binary64) : Alike (x * z) (y * z) := by
  rcases h with rfl | ⟨hx, hy⟩
  · exact .refl _
  · cases hz : z.isFinite with
    | true => exact .inr ⟨hx.mul hz, hy.mul hz⟩
    | false => exact .inl (by rw [hx.mul_eq_nan hz, hy.mul_eq_nan hz])

/-- Terms commute, also where one of them is not finite. -/
protected theorem add_comm (x y : Binary64) : x + y = y + x := by
  cases x with
  | nan => rw [nan_add, add_nan]
  | infinite s =>
    cases y with
    | nan => rfl
    | infinite t =>
      show (if s = t then infinite s else nan) = if t = s then infinite t else nan
      by_cases hst : s = t
      · rw [if_pos hst, if_pos hst.symm, hst]
      · rw [if_neg hst, if_neg (Ne.symm hst)]
    | finite t n hn => rfl
  | finite s m hm =>
    cases y with
    | nan => rfl
    | infinite t => rfl
    | finite t n hn => simp only [finite_add_finite, Int.add_comm, Bool.and_comm]

/-- A quantity other than zero does not round to zero. -/
theorem round_ne_zero {n : Nat} (hn : n ≠ 0) : Precision.double.round n 1 ≠ 0 := by
  have hone : Precision.double.round 1 1 = 1 := Precision.double.round_of_aligned (by decide)
  have hle := Precision.double.round_mono Nat.one_pos Nat.one_pos
    (Nat.mul_le_mul_right 1 (Nat.one_le_iff_ne_zero.mpr hn))
  omega

/-- A sum from anything but a negative zero is no negative zero. -/
theorem add_ne_negZero (hx : x ≠ negZero) (y : Binary64) : x + y ≠ negZero := by
  rw [negZero_eq] at hx ⊢
  cases x with
  | nan => simp
  | infinite s =>
    cases y with
    | nan => simp
    | infinite t =>
      show (if s = t then infinite s else nan) ≠ _
      split <;> simp
    | finite t n hn =>
      intro h
      cases h
  | finite s m hm =>
    cases y with
    | nan => simp
    | infinite t =>
      intro h
      cases h
    | finite t n hn =>
      rw [finite_add_finite]
      intro hequal
      dsimp only at hequal
      -- an exact sum of zero is negative only if both terms are; any other sum does not round to zero
      by_cases hsum : (if s then -(m : Int) else m) + (if t then -(n : Int) else n) = 0
      · rw [if_pos hsum, ofRatio_eq_finite_iff] at hequal
        obtain ⟨rfl, rfl⟩ := Bool.and_eq_true_iff.mp hequal.1
        have hm0 : m = 0 := by
          simp only [if_true] at hsum
          omega
        subst hm0
        exact hx rfl
      · rw [if_neg hsum, ofRatio_eq_finite_iff] at hequal
        exact round_ne_zero (Int.natAbs_ne_zero.mpr hsum) hequal.2

/-- A zero that is added changes nothing but a negative zero. -/
theorem add_eq_self_of_isZero (hx : x ≠ negZero) (hy : IsZero y) : x + y = x := by
  by_cases hzero : IsZero x
  · have hx0 : x = 0 := (isZero_iff.mp hzero).resolve_right hx
    rcases isZero_iff.mp (hzero.add hy) with hsum | hsum
    · rw [hsum, hx0]
    · exact absurd hsum (add_ne_negZero hx y)
  · rw [Binary64.add_comm, hy.add_eq hzero]

/-- Like terms may be exchanged in a sum from anything but a negative zero. -/
theorem Alike.add_left (h : Alike y z) (hx : x ≠ negZero) : x + y = x + z := by
  rcases h with rfl | ⟨hy, hz⟩
  · rfl
  · rw [add_eq_self_of_isZero hx hy, add_eq_self_of_isZero hx hz]

theorem zero_add (hx : x ≠ negZero) : 0 + x = x := by
  by_cases hzero : IsZero x
  · rw [(isZero_iff.mp hzero).resolve_right hx, add_eq_self_of_isZero zero_ne_negZero isZero_zero]
  · exact isZero_zero.add_eq hzero

theorem negZero_add (x : Binary64) : negZero + x = x := by
  by_cases hzero : IsZero x
  · rcases isZero_iff.mp hzero with rfl | rfl
    · rw [Binary64.add_comm, add_eq_self_of_isZero zero_ne_negZero isZero_negZero]
    · rw [negZero_eq, finite_add_finite]
      simpa using ofRatio_fits true fitsDouble_zero
  · exact isZero_negZero.add_eq hzero

/-- The zero that a sum starts from may be added at the end. -/
theorem zero_add_add (x y : Binary64) : 0 + x + y = 0 + (x + y) := by
  by_cases hx : x = negZero
  · rw [hx, add_eq_self_of_isZero zero_ne_negZero isZero_negZero, negZero_add]
  · rw [zero_add hx, zero_add (add_ne_negZero hx y)]

/-- Adding a zero leaves a double alike. -/
theorem alike_add_of_isZero (hy : IsZero y) : Alike (x + y) x := by
  by_cases hx : IsZero x
  · exact .inr ⟨hx.add hy, hx⟩
  · rw [Binary64.add_comm, hy.add_eq hx]
    exact .refl x

theorem alike_add_of_isZero_left (hy : IsZero y) : Alike (y + x) x := by
  rw [Binary64.add_comm]
  exact alike_add_of_isZero hy

/-! ### Written forms and fingerprints -/

theorem isZero_roundPlaces (places : Nat) (hx : IsZero x) : IsZero (x.roundPlaces places) := by
  obtain ⟨s, rfl⟩ := exists_sign_of_isZero hx
  simp only [roundPlaces, Nat.zero_mul, nearest_zero, Decimal.toBinary64, if_true]
  exact isZero_ofRatio_zero s 1

/-- Like doubles are written alike to six places. -/
theorem Alike.toSixPlaces_eq (h : Alike x y) : x.toSixPlaces = y.toSixPlaces := by
  have hzero : ∀ {z : Binary64}, IsZero z → z.roundPlaces 6 + 0 = 0 := fun hz => by
    rw [Binary64.add_comm, add_eq_self_of_isZero zero_ne_negZero (isZero_roundPlaces 6 hz)]
  rcases h with rfl | ⟨hx, hy⟩
  · rfl
  · rw [toSixPlaces, toSixPlaces, hzero hx, hzero hy]

theorem fingerprint_of_isZero (hx : IsZero x) : x.fingerprint = some 0 := by
  obtain ⟨s, rfl⟩ := exists_sign_of_isZero hx
  simp [fingerprint]

/-- Like doubles share their fingerprint. -/
theorem Alike.fingerprint_eq (h : Alike x y) : x.fingerprint = y.fingerprint := by
  rcases h with rfl | ⟨hx, hy⟩
  · rfl
  · rw [fingerprint_of_isZero hx, fingerprint_of_isZero hy]

end PlaneSketch.Binary64
