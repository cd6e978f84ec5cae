import PlaneSketch.FormatSpec.Template
import PlaneSketch.Proofs.Binary64.Units
import PlaneSketch.Proofs.Numeral.Value
import PlaneSketch.Transform.Double

/-!
# Numbers to six places

The default text of a real is that of its value rounded to six decimal places. Two roundings to grids that do not fit
each other make up this value: one to the multiples of `10 ^ -6`, a tie going to the even one, and one from there to the
doubles. Where doubles are less than `10 ^ -6` apart, the second rounding is undone by the first; where they are further
apart, all of them are kept. The text is a multiple of `10 ^ -6` although it is written with the shortest digits, since
the decimal between the two roundings is read as the same double.

* `sixPlaceUnits_idem`: rounding again changes nothing.
* `abs_sixPlaceUnits_sub_le`: both roundings together go no further than one step.
* `exists_numeral_sixPlaces`: the text is a multiple of `10 ^ -6`.
* `shows_six_places`: what the default text of a finite double, and the summary of a finite transform, shows.
-/

namespace PlaneSketch.Binary64

variable {n : ℕ}

/-! ### Magnitudes -/

/-- The whole number of steps of `10 ^ -6` nearest to `n` units. -/
def sixPlaceSteps (n : ℕ) : ℕ := nearest (n * 10 ^ 6) unitsPerOne

/-- The units of the double nearest to `n` units brought to six places. -/
def sixPlaceUnits (n : ℕ) : ℕ := Precision.double.round (sixPlaceSteps n * unitsPerOne) (10 ^ 6)

theorem sixPlaceUnits_zero : sixPlaceUnits 0 = 0 := by
  rw [sixPlaceUnits, sixPlaceSteps, Nat.zero_mul, nearest_zero, Nat.zero_mul, Precision.round_zero]

theorem sixPlaceUnits_mono : Monotone sixPlaceUnits := fun _ _ hmn => by
  have hsteps := nearest_mono unitsPerOne_pos unitsPerOne_pos
    (Nat.mul_le_mul_right unitsPerOne (Nat.mul_le_mul_right (10 ^ 6) hmn))
  exact Precision.double.round_mono (by decide) (by decide)
    (Nat.mul_le_mul_right _ (Nat.mul_le_mul_right unitsPerOne hsteps))

theorem aligned_sixPlaceUnits (n : ℕ) : Precision.double.Aligned (sixPlaceUnits n) :=
  Precision.double.round_aligned _ _

theorem two_mul_abs_sixPlaceSteps_sub_le (n : ℕ) :
    2 * |(sixPlaceSteps n * unitsPerOne - n * 10 ^ 6 : ℤ)| ≤ unitsPerOne := by
  exact_mod_cast two_mul_abs_nearest_sub_le unitsPerOne_pos (n * 10 ^ 6)

/-- The two roundings together go no further than one step: the double one starts from is no nearer to the decimal in
between than the result. -/
theorem abs_sixPlaceUnits_sub_le (hn : Precision.double.Aligned n) :
    |(sixPlaceUnits n * 10 ^ 6 - n * 10 ^ 6 : ℤ)| ≤ unitsPerOne := by
  have hback : |(sixPlaceUnits n * 10 ^ 6 - sixPlaceSteps n * unitsPerOne : ℤ)| ≤
      |(n * 10 ^ 6 - sixPlaceSteps n * unitsPerOne : ℤ)| := by
    exact_mod_cast Precision.double.abs_round_sub_le (d := 10 ^ 6) (by decide) (sixPlaceSteps n * unitsPerOne)
      (m := n) hn
  have hdecimal := two_mul_abs_sixPlaceSteps_sub_le n
  rw [abs_sub_comm] at hback
  calc |(sixPlaceUnits n * 10 ^ 6 - n * 10 ^ 6 : ℤ)|
      ≤ |(sixPlaceUnits n * 10 ^ 6 - sixPlaceSteps n * unitsPerOne : ℤ)| +
          |(sixPlaceSteps n * unitsPerOne - n * 10 ^ 6 : ℤ)| := abs_sub_le _ _ _
    _ ≤ unitsPerOne := by
        rw [abs_sub_comm] at hback
        rw [abs_sub_comm (n * 10 ^ 6 : ℤ)] at hback
        linarith

/-! ### Doubles that are kept -/

/-- Whole numbers are kept. -/
theorem sixPlaceUnits_of_dvd (hn : Precision.double.Aligned n) (hdvd : unitsPerOne ∣ n) : sixPlaceUnits n = n := by
  obtain ⟨j, rfl⟩ := hdvd
  have hsteps : sixPlaceSteps (unitsPerOne * j) = j * 10 ^ 6 := by
    rw [sixPlaceSteps, Nat.mul_assoc, Nat.mul_comm, nearest_mul _ unitsPerOne_pos]
  have hnum : j * 10 ^ 6 * unitsPerOne = 10 ^ 6 * (unitsPerOne * j) := by ring
  rw [sixPlaceUnits, hsteps, hnum]
  calc Precision.double.round (10 ^ 6 * (unitsPerOne * j)) (10 ^ 6)
      = Precision.double.round (10 ^ 6 * (unitsPerOne * j)) (10 ^ 6 * 1) := by rw [Nat.mul_one]
    _ = unitsPerOne * j := by
        rw [Precision.round_mul_left _ (by decide), Precision.double.round_of_aligned hn]

/-- Where neighbouring doubles are more than a step apart, all of them are kept: the decimal in between is nearer to the
double one starts from than to any other. -/
theorem sixPlaceUnits_of_coarse (hn : Precision.double.Aligned n)
    (hcoarse : unitsPerOne < 10 ^ 6 * Precision.double.spacing n) : sixPlaceUnits n = n := by
  obtain ⟨m, hm, hunits⟩ : ∃ m, m = 1074 ∧ unitsPerOne = Nat.pow 2 m := ⟨1074, rfl, by decide +kernel⟩
  obtain ⟨t, ht⟩ : ∃ t, Precision.double.spacingLog n = t := ⟨_, rfl⟩
  have hspacing : Precision.double.spacing n = 2 ^ t := by rw [← ht]; rfl
  -- `10 ^ 6 < 2 ^ 20`, so a spacing that wide has at most twenty binary places after the point
  have hlog : m < 20 + t := by
    refine (Nat.pow_lt_pow_iff_right (by decide : 1 < 2)).mp ?_
    calc 2 ^ m < 10 ^ 6 * 2 ^ t := by rwa [hunits, hspacing] at hcoarse
      _ ≤ 2 ^ 20 * 2 ^ t := Nat.mul_le_mul_right _ (by decide)
      _ = 2 ^ (20 + t) := (Nat.pow_add 2 20 t).symm
  have hbegin : 2 ^ (53 + t - 1) ≤ n := by
    rw [← ht]
    exact Precision.double.two_pow_le_of_finest_lt (by rw [ht]; exact Nat.pos_of_ne_zero (by omega))
  rcases hbegin.eq_or_lt with heq | hlt
  · -- at the power of two where the spacing begins, the points below are closer, but it is a whole number
    refine sixPlaceUnits_of_dvd hn ?_
    rw [hunits, ← heq]
    exact Nat.pow_dvd_pow 2 (by omega)
  · have hnear := abs_sixPlaceUnits_sub_le hn
    have hcoarse : (unitsPerOne : ℤ) < 10 ^ 6 * Precision.double.spacing n := by exact_mod_cast hcoarse
    refine Precision.double.eq_of_abs_sub_lt_spacing hn (aligned_sixPlaceUnits n) (by rwa [ht]) ?_
    rw [← sub_mul, abs_mul, abs_of_pos (by norm_num : (0 : ℤ) < 10 ^ 6)] at hnear
    linarith

/-- **Rounding twice** changes nothing more. Where doubles are less than a step apart, the result is rounded to the same
decimal again; where they are further apart, it is kept. -/
theorem sixPlaceUnits_idem (n : ℕ) : sixPlaceUnits (sixPlaceUnits n) = sixPlaceUnits n := by
  rcases Nat.lt_trichotomy (10 ^ 6 * Precision.double.spacing (sixPlaceUnits n)) unitsPerOne with hlt | heq | hgt
  · -- the double is less than half a step away from its decimal, so no other decimal is as near
    have hlog := Precision.double.spacingLog_le_spacingLog_round (sixPlaceSteps n * unitsPerOne) (10 ^ 6)
    have hspacing : Precision.double.spacing (sixPlaceSteps n * unitsPerOne / 10 ^ 6) ≤
        Precision.double.spacing (sixPlaceUnits n) := Nat.pow_le_pow_right (by decide) hlog
    have hback := Precision.double.two_mul_abs_round_sub_le (d := 10 ^ 6) (by decide) (sixPlaceSteps n * unitsPerOne)
    have hsteps : (sixPlaceSteps (sixPlaceUnits n) : ℤ) = sixPlaceSteps n := by
      refine nearest_eq_of_two_mul_lt ?_
      rw [abs_sub_comm]
      calc 2 * |((sixPlaceUnits n * 10 ^ 6 : ℕ) - sixPlaceSteps n * unitsPerOne : ℤ)|
          ≤ (10 ^ 6 * Precision.double.spacing (sixPlaceSteps n * unitsPerOne / 10 ^ 6) : ℕ) := by exact_mod_cast hback
        _ ≤ (10 ^ 6 * Precision.double.spacing (sixPlaceUnits n) : ℕ) := by
            exact_mod_cast Nat.mul_le_mul_left _ hspacing
        _ < unitsPerOne := by exact_mod_cast hlt
    have hsteps : sixPlaceSteps (sixPlaceUnits n) = sixPlaceSteps n := by exact_mod_cast hsteps
    rw [sixPlaceUnits, hsteps]
    rfl
  · -- no step is a spacing: the one is a multiple of five, the other a power of two
    have hfive : 5 ∣ 10 ^ 6 * Precision.double.spacing (sixPlaceUnits n) :=
      Nat.dvd_trans (by decide) (Nat.dvd_mul_right _ _)
    rw [heq] at hfive
    exact absurd hfive (by decide +kernel)
  · exact sixPlaceUnits_of_coarse (aligned_sixPlaceUnits n) hgt

theorem fitsDouble_sixPlaceUnits (hn : FitsDouble n) : FitsDouble (sixPlaceUnits n) := by
  refine ⟨aligned_sixPlaceUnits n, ?_⟩
  -- the point half-way to the limit lies further below it than one, and nothing is moved up by more than that
  have hroom : overflowUnits + unitsPerOne ≤ Precision.double.limit := by decide +kernel
  have hbelow : n < overflowUnits := by
    have hlt := hn.below
    rw [← Precision.double.round_of_aligned hn.aligned, round_lt_limit_iff Nat.one_pos, Nat.mul_one] at hlt
    exact hlt
  have hnear := (le_abs_self _).trans (abs_sixPlaceUnits_sub_le hn.aligned)
  have hstep : (sixPlaceUnits n * 10 ^ 6 : ℤ) ≤ (n + unitsPerOne) * 10 ^ 6 := by linarith
  have hle : sixPlaceUnits n ≤ n + unitsPerOne := by
    exact_mod_cast le_of_mul_le_mul_right hstep (by norm_num)
  omega

/-! ### Doubles -/

/-- The double that is shown in place of a given one. -/
def sixPlaces (x : Binary64) : Binary64 := x.roundPlaces 6 + 0

variable {x y : Binary64} {u v : ℤ}

theorem toBinary64_sixPlaceSteps (s : Bool) (hn : FitsDouble n) :
    Decimal.toBinary64 s ⟨sixPlaceSteps n, -6⟩ = finite s (sixPlaceUnits n) (fitsDouble_sixPlaceUnits hn) := by
  have hexponent : (-6 : ℤ) = (0 : ℕ) - (6 : ℕ) := rfl
  rw [hexponent, Decimal.toBinary64_eq_ofRatio, ofRatio_eq_finite_iff, Nat.pow_zero, Nat.mul_one]
  exact ⟨rfl, rfl⟩

theorem sixPlaces_ne_negZero (x : Binary64) : x.sixPlaces ≠ negZero := by
  rw [sixPlaces, Binary64.add_comm]
  exact add_ne_negZero zero_ne_negZero _

theorem Counts.sixPlaces (hx : Counts x u) : Counts x.sixPlaces (onMagnitude sixPlaceUnits u) := by
  obtain ⟨s, n, hn, rfl, rfl⟩ := hx
  have hround : (finite s n hn).roundPlaces 6 = finite s (sixPlaceUnits n) (fitsDouble_sixPlaceUnits hn) :=
    toBinary64_sixPlaceSteps s hn
  -- the zero that is added takes away the sign of a zero, which leaves the count as it is
  have halike : Alike ((finite s n hn).roundPlaces 6) (finite s n hn).sixPlaces := by
    rw [Binary64.sixPlaces]
    exact (alike_add_of_isZero isZero_zero).symm
  rw [onMagnitude_signed sixPlaceUnits_zero]
  refine Counts.of_alike ?_ halike
  rw [hround]
  exact counts_finite s _

theorem sixPlaces_idem (hx : x.isFinite = true) : x.sixPlaces.sixPlaces = x.sixPlaces := by
  obtain ⟨u, hu⟩ := exists_counts hx
  obtain ⟨s, n, hn, rfl, rfl⟩ := id hu
  refine Counts.eq_of_ne_negZero hu.sixPlaces.sixPlaces ?_ (sixPlaces_ne_negZero _) (sixPlaces_ne_negZero _)
  rw [onMagnitude_signed sixPlaceUnits_zero, onMagnitude_signed sixPlaceUnits_zero, sixPlaceUnits_idem,
    ← onMagnitude_signed sixPlaceUnits_zero]
  exact hu.sixPlaces

theorem sixPlaces_mono (hx : x.isFinite = true) (hy : y.isFinite = true) (hle : x ≤ y) :
    x.sixPlaces ≤ y.sixPlaces := by
  obtain ⟨u, hu⟩ := exists_counts hx
  obtain ⟨v, hv⟩ := exists_counts hy
  rw [hu.sixPlaces.le_iff hv.sixPlaces]
  exact onMagnitude_mono sixPlaceUnits_mono ((hu.le_iff hv).mp hle)

theorem exists_rational_sixPlaces (hx : x.isFinite = true) :
    ∃ p q : ℚ, x.rational? = some p ∧ x.sixPlaces.rational? = some q ∧ |q - p| ≤ 1 / 10 ^ 6 := by
  obtain ⟨u, hu⟩ := exists_counts hx
  refine ⟨_, _, hu.rational, hu.sixPlaces.rational, ?_⟩
  obtain ⟨s, n, hn, rfl, rfl⟩ := hu
  have hunits := cast_unitsPerOne_pos
  have hsign : |(if s then -(sixPlaceUnits n : ℤ) else sixPlaceUnits n) - (if s then -(n : ℤ) else n)| =
      |(sixPlaceUnits n - n : ℤ)| := by
    cases s with
    | false => simp
    | true => simp [abs_sub_comm, neg_add_eq_sub]
  have hnear : |(sixPlaceUnits n - n : ℤ)| * 10 ^ 6 ≤ 1 * unitsPerOne := by
    have hnear := abs_sixPlaceUnits_sub_le hn.aligned
    rw [← sub_mul, abs_mul, abs_of_pos (by norm_num : (0 : ℤ) < 10 ^ 6)] at hnear
    linarith
  rw [onMagnitude_signed sixPlaceUnits_zero, ← sub_div, abs_div, abs_of_pos hunits, ← Int.cast_sub, ← Int.cast_abs,
    hsign, div_le_div_iff₀ hunits (by norm_num)]
  exact_mod_cast hnear

/-! ### Texts -/

theorem exists_finite_sixPlaces (s : Bool) (hn : FitsDouble n) : ∃ t, (finite s n hn).sixPlaces =
    finite t (sixPlaceUnits n) (fitsDouble_sixPlaceUnits hn) := by
  have hcount := (counts_finite s hn).sixPlaces
  have hmagnitude := natAbs_onMagnitude sixPlaceUnits (if s then -(n : ℤ) else n)
  obtain ⟨t, m, hm, heq, hm'⟩ := hcount
  obtain rfl : m = sixPlaceUnits n := by
    rw [hm'] at hmagnitude
    cases s <;> cases t <;> simpa using hmagnitude
  exact ⟨t, heq⟩

/-- The shortest decimal of a double is no finer than any decimal that is read as that double. -/
theorem le_exponent_shortest (t : Bool) (hn : FitsDouble n) :
    -6 ≤ (Decimal.shortest (finite t (sixPlaceUnits n) (fitsDouble_sixPlaceUnits hn)) (sixPlaceUnits n)).exponent := by
  by_cases hzero : sixPlaceUnits n = 0
  · rw [Decimal.shortest, if_pos hzero]
    decide
  · exact Decimal.exponent_le_shortest hzero (toBinary64_sixPlaceSteps t hn)

theorem exists_numeral_sixPlaces (hx : x.isFinite = true) :
    ∃ (m : Numeral) (k : ℤ), Numeral.Spells x.sixPlaces.text.toList m ∧ m.rational = k / 10 ^ 6 := by
  obtain ⟨u, s, n, hn, rfl, -⟩ := exists_counts hx
  obtain ⟨t, ht⟩ := exists_finite_sixPlaces s hn
  have hexponent := le_exponent_shortest t hn
  obtain ⟨m, hm, -, hvalue⟩ := Numeral.spells_text t (sixPlaceUnits n) (fitsDouble_sixPlaceUnits hn)
  generalize Decimal.shortest (finite t (sixPlaceUnits n) (fitsDouble_sixPlaceUnits hn)) (sixPlaceUnits n) = d
    at hexponent hvalue
  obtain ⟨c, e⟩ := d
  -- the digits end at the sixth place or before, so what is left is a power of ten
  obtain ⟨a, rfl⟩ : ∃ a : ℕ, e = a - (6 : ℕ) := ⟨(e + 6).toNat, by dsimp only at hexponent; omega⟩
  have hmagnitude : m.magnitude = (c * 10 ^ a : ℕ) / 10 ^ 6 := by
    rw [m.magnitude_eq, hvalue, Decimal.rational_sub, Nat.cast_pow, Nat.cast_ofNat]
  rw [ht]
  refine ⟨m, if m.negative then -(c * 10 ^ a : ℕ) else (c * 10 ^ a : ℕ), hm, ?_⟩
  rw [Numeral.rational, hmagnitude]
  split_ifs
  · push_cast
    ring
  · push_cast
    ring

/-- The text shows the double `x` to six places, and it is read back as the double `y`. -/
structure Shows (text : String) (x y : Binary64) : Prop where
  format_eq : (Datum.real x).format none = .ok text
  isNumeral : (Numeral.finite? text.toList).isSome = true
  read_eq : Numeral.readNumber text = .ok y
  steps : ∃ (m : Numeral) (k : ℤ), Numeral.Spells text.toList m ∧ m.rational = k / 10 ^ 6
  near : ∃ p q : ℚ, x.rational? = some p ∧ y.rational? = some q ∧ |q - p| ≤ 1 / 10 ^ 6
  ne_negZero : y ≠ negZero
  format_again : (Datum.real y).format none = .ok text

theorem shows_sixPlaces (hx : x.isFinite = true) : Shows x.sixPlaces.text x x.sixPlaces := by
  obtain ⟨u, hu⟩ := exists_counts hx
  have hy : x.sixPlaces.isFinite = true := hu.sixPlaces.isFinite
  refine ⟨rfl, ?_, Numeral.readNumber_text hy, exists_numeral_sixPlaces hx, exists_rational_sixPlaces hx,
    sixPlaces_ne_negZero x, ?_⟩
  · rw [Numeral.finite?_eq_some_iff.mpr (Numeral.literal_text hy)]
    rfl
  · show Except.ok x.sixPlaces.sixPlaces.text = _
    rw [sixPlaces_idem hx]

theorem Shows.eq_sixPlaces {text : String} (h : Shows text x y) : x.isFinite = true ∧ y = x.sixPlaces := by
  obtain ⟨p, -, hp, -⟩ := h.near
  have hx : x.isFinite = true := exists_rational_iff.mp ⟨p, hp⟩
  -- there is only one text for `x`, and what is read back is determined by the text
  have hsame : x.sixPlaces.text = text := Except.ok.inj ((shows_sixPlaces hx).format_eq.symm.trans h.format_eq)
  refine ⟨hx, Except.ok.inj (h.read_eq.symm.trans ?_)⟩
  rw [← hsame]
  exact (shows_sixPlaces hx).read_eq

/-- **Six places.** The default text of a finite double is a numeral, a multiple of `10 ^ -6`; it is read back as a
double no further than `10 ^ -6` away that is no negative zero and has the same text again. What is read back keeps the
order of the doubles that were written. The summary of a finite transform shows six such texts with their names. -/
theorem shows_six_places :
    (∀ x : Binary64, x.isFinite = true → ∃ text y, Shows text x y) ∧
      (∀ (s t : String) (x₁ x₂ y₁ y₂ : Binary64), Shows s x₁ y₁ → Shows t x₂ y₂ → x₁ ≤ x₂ → y₁ ≤ y₂) ∧
      ∀ t : Transform Binary64, t.isFinite = true →
        ∃ texts, List.Forall₂ (fun x text => ∃ y, Shows text x y) t.coefficients texts ∧
          t.summary = ", ".intercalate
            (List.zipWith (fun name text => name ++ ": " ++ text) Transform.coefficientNames texts) := by
  refine ⟨fun x hx => ⟨_, _, shows_sixPlaces hx⟩, ?_, ?_⟩
  · intro s t x₁ x₂ y₁ y₂ h₁ h₂ hle
    obtain ⟨hx₁, rfl⟩ := h₁.eq_sixPlaces
    obtain ⟨hx₂, rfl⟩ := h₂.eq_sixPlaces
    exact sixPlaces_mono hx₁ hx₂ hle
  · intro t ht
    refine ⟨t.coefficients.map toSixPlaces, ?_, ?_⟩
    · rw [List.forall₂_map_right_iff, List.forall₂_same]
      exact fun x hx => ⟨_, shows_sixPlaces (List.all_eq_true.mp ht x hx)⟩
    · rw [Transform.summary, List.zipWith_map_right]

/-- Two doubles half-way between multiples of `10 ^ -6` are shown by the even ones. -/
theorem shows_ties : ∃ y₁ y₂, Shows "0.007812" (ofFraction 1 128) y₁ ∧ Shows "0.023438" (ofFraction 3 128) y₂ ∧
    y₁ ≤ y₂ := by
  have hlow : (Datum.real (ofFraction 1 128)).format none = .ok "0.007812" := by decide +kernel
  have hhigh : (Datum.real (ofFraction 3 128)).format none = .ok "0.023438" := by decide +kernel
  obtain ⟨s, y₁, h₁⟩ := shows_six_places.1 (ofFraction 1 128) (by decide +kernel)
  obtain ⟨t, y₂, h₂⟩ := shows_six_places.1 (ofFraction 3 128) (by decide +kernel)
  obtain rfl := Except.ok.inj (h₁.format_eq.symm.trans hlow)
  obtain rfl := Except.ok.inj (h₂.format_eq.symm.trans hhigh)
  exact ⟨y₁, y₂, h₁, h₂, shows_six_places.2.1 _ _ _ _ _ _ h₁ h₂ (by decide +kernel)⟩

end PlaneSketch.Binary64
