import PlaneSketch.Proofs.Binary64.Nearest
import PlaneSketch.Proofs.Binary64.SignedZero

/-!
# Counting units

A finite double is a signed count of units. The operations act on these counts as exact arithmetic followed by one
rounding of the magnitude, so their order and their bounds are questions about integers.

* `onMagnitude_mono`: what keeps the order of magnitudes keeps that of signed quantities.
* `Counts.le_iff`, `Counts.rational`: comparisons and exact values.
* `Counts.add`, `Counts.mul`, `Counts.half`, `Counts.two_mul`: arithmetic as long as it stays finite.
-/

namespace PlaneSketch

/-! ### Signed quantities -/

/-- A function of magnitudes carried over to signed quantities. -/
def onMagnitude (f : ℕ → ℕ) (i : ℤ) : ℤ := if i < 0 then -(f i.natAbs : ℤ) else f i.natAbs

theorem onMagnitude_mono {f : ℕ → ℕ} (hf : Monotone f) {i j : ℤ} (hij : i ≤ j) :
    onMagnitude f i ≤ onMagnitude f j := by
  unfold onMagnitude
  split_ifs with hi hj
  · have := hf (show j.natAbs ≤ i.natAbs by omega)
    omega
  · omega
  · omega
  · have := hf (show i.natAbs ≤ j.natAbs by omega)
    omega

theorem onMagnitude_signed {f : ℕ → ℕ} (hzero : f 0 = 0) (s : Bool) (n : ℕ) :
    onMagnitude f (if s then -(n : ℤ) else n) = if s then -(f n : ℤ) else f n := by
  unfold onMagnitude
  cases s with
  | false => simp
  | true =>
    rcases Nat.eq_zero_or_pos n with rfl | hn
    · simp [hzero]
    · simp [hn]

theorem onMagnitude_natCast (f : ℕ → ℕ) (m : ℕ) : onMagnitude f m = f m := by
  simp [onMagnitude]

theorem natAbs_onMagnitude (f : ℕ → ℕ) (i : ℤ) : (onMagnitude f i).natAbs = f i.natAbs := by
  unfold onMagnitude
  split_ifs <;> simp

namespace Binary64

variable {x y : Binary64} {u v : ℤ}

/-! ### Counts of units -/

/-- The double is finite and counts that many units. -/
def Counts (x : Binary64) (u : ℤ) : Prop :=
  ∃ s n, ∃ h : FitsDouble n, x = finite s n h ∧ u = if s then -(n : ℤ) else n

theorem counts_finite (s : Bool) {n : ℕ} (h : FitsDouble n) : Counts (finite s n h) (if s then -(n : ℤ) else n) :=
  ⟨s, n, h, rfl, rfl⟩

theorem exists_counts (hx : x.isFinite = true) : ∃ u, Counts x u := by
  cases x with
  | nan => cases hx
  | infinite s => cases hx
  | finite s n h => exact ⟨_, counts_finite s h⟩

theorem Counts.isFinite (hx : Counts x u) : x.isFinite = true := by
  obtain ⟨s, n, h, rfl, rfl⟩ := hx
  rfl

theorem Counts.units (hx : Counts x u) : x.units? = some u := by
  obtain ⟨s, n, h, rfl, rfl⟩ := hx
  rfl

theorem Counts.rational (hx : Counts x u) : x.rational? = some (u / unitsPerOne : ℚ) := by
  obtain ⟨s, n, h, rfl, rfl⟩ := hx
  rfl

theorem Counts.fits (hx : Counts x u) : FitsDouble u.natAbs := by
  obtain ⟨s, n, h, rfl, rfl⟩ := hx
  have hmagnitude : (if s then -(n : ℤ) else n).natAbs = n := by cases s <;> simp
  rw [hmagnitude]
  exact h

theorem Counts.unique (hx : Counts x u) (hx' : Counts x v) : u = v :=
  Option.some.inj (hx.units.symm.trans hx'.units)

theorem Counts.le_iff (hx : Counts x u) (hy : Counts y v) : x ≤ y ↔ u ≤ v := by
  show compareBy (fun a b => a ≤ b) x y = true ↔ u ≤ v
  rw [compareBy, hx.units, hy.units]
  exact decide_eq_true_iff

/-- Doubles that can be compared count something, the infinities included. -/
theorem le_iff_exists_units : x ≤ y ↔ ∃ i j, x.units? = some i ∧ y.units? = some j ∧ i ≤ j := by
  show compareBy (fun a b => a ≤ b) x y = true ↔ _
  unfold compareBy
  cases x.units? <;> cases y.units? <;> simp

theorem lt_iff_exists_units : x < y ↔ ∃ i j, x.units? = some i ∧ y.units? = some j ∧ i < j := by
  show compareBy (fun a b => a < b) x y = true ↔ _
  unfold compareBy
  cases x.units? <;> cases y.units? <;> simp

protected theorem le_trans {z : Binary64} (hxy : x ≤ y) (hyz : y ≤ z) : x ≤ z := by
  obtain ⟨i, j, hi, hj, hij⟩ := le_iff_exists_units.mp hxy
  obtain ⟨j', k, hj', hk, hjk⟩ := le_iff_exists_units.mp hyz
  obtain rfl : j = j' := Option.some.inj (hj.symm.trans hj')
  exact le_iff_exists_units.mpr ⟨i, k, hi, hk, hij.trans hjk⟩

/-- What lies between two finite doubles is finite. -/
theorem Counts.exists_of_between {z : Binary64} {w : ℤ} (hx : Counts x u) (hz : Counts z w) (hxy : x ≤ y)
    (hyz : y ≤ z) : ∃ v, Counts y v ∧ u ≤ v ∧ v ≤ w := by
  obtain ⟨u', v, hu', hv, huv⟩ := le_iff_exists_units.mp hxy
  obtain ⟨v', w', hv', hw', hvw⟩ := le_iff_exists_units.mp hyz
  obtain rfl : u = u' := Option.some.inj (hx.units.symm.trans hu')
  obtain rfl : v = v' := Option.some.inj (hv.symm.trans hv')
  obtain rfl : w = w' := Option.some.inj (hz.units.symm.trans hw')
  refine ⟨v, ?_, huv, hvw⟩
  have hu := hx.fits.below
  have hw := hz.fits.below
  cases y with
  | nan => cases hv
  | infinite s =>
    obtain rfl := Option.some.inj hv
    cases s <;> simp only [Bool.false_eq_true, if_true, if_false] at huv hvw <;> omega
  | finite s n hn =>
    obtain rfl := Option.some.inj hv
    exact counts_finite s hn

theorem Counts.of_alike (hx : Counts x u) (h : Alike x y) : Counts y u := by
  rcases h with rfl | ⟨hzx, hzy⟩
  · exact hx
  · obtain ⟨s, rfl⟩ := exists_sign_of_isZero hzx
    obtain ⟨t, rfl⟩ := exists_sign_of_isZero hzy
    obtain rfl : u = 0 := by simpa [units?] using hx.units.symm
    exact ⟨t, 0, fitsDouble_zero, rfl, by simp⟩

/-- Apart from the negative zero, a double is determined by its count. -/
theorem Counts.eq_of_ne_negZero (hx : Counts x u) (hy : Counts y u) (hx0 : x ≠ negZero) (hy0 : y ≠ negZero) :
    x = y := by
  by_cases hu : u = 0
  · subst hu
    rw [(isZero_iff.mp (units?_eq_zero_iff.mp hx.units)).resolve_right hx0,
      (isZero_iff.mp (units?_eq_zero_iff.mp hy.units)).resolve_right hy0]
  · exact eq_of_units?_eq hx.units hy.units hu

/-! ### Arithmetic -/

theorem counts_ofRatio {s : Bool} {n den : ℕ} (hfin : (ofRatio s n den).isFinite = true) :
    Counts (ofRatio s n den) (onMagnitude (Precision.double.round · den) (if s then -(n : ℤ) else n)) := by
  have hzero : (Precision.double.round · den) 0 = 0 := Precision.double.round_zero den
  unfold ofRatio
  rw [dif_pos (isFinite_ofRatio_iff_round_lt.mp hfin), onMagnitude_signed hzero]
  exact counts_finite s _

/-- The units of a sum: those of the terms, added and rounded. -/
def sumUnits (u v : ℤ) : ℤ := onMagnitude (Precision.double.round · 1) (u + v)

theorem sumUnits_mono (h : u ≤ v) (w : ℤ) : sumUnits u w ≤ sumUnits v w :=
  onMagnitude_mono (Precision.double.monotone_round Nat.one_pos) (Int.add_le_add_right h w)

/-- A sum is rounded from the exact one, with the sign of that unless it is zero. -/
theorem Counts.exists_add_eq (hx : Counts x u) (hy : Counts y v) :
    ∃ s, x + y = ofRatio s (u + v).natAbs 1 ∧ u + v = if s then -((u + v).natAbs : ℤ) else (u + v).natAbs := by
  obtain ⟨s, m, hm, rfl, rfl⟩ := hx
  obtain ⟨t, n, hn, rfl, rfl⟩ := hy
  rw [finite_add_finite]
  generalize (if s then -(m : ℤ) else m) + (if t then -(n : ℤ) else n) = sum
  dsimp only
  by_cases hsum : sum = 0
  · subst hsum
    exact ⟨s && t, rfl, by simp⟩
  · refine ⟨decide (sum < 0), by rw [if_neg hsum], ?_⟩
    simp only [decide_eq_true_eq]
    split <;> omega

theorem Counts.isFinite_add_iff (hx : Counts x u) (hy : Counts y v) :
    (x + y).isFinite = true ↔ (sumUnits u v).natAbs < Precision.double.limit := by
  obtain ⟨s, hsum, -⟩ := hx.exists_add_eq hy
  rw [hsum, isFinite_ofRatio_iff_round_lt, sumUnits, natAbs_onMagnitude]

theorem Counts.add (hx : Counts x u) (hy : Counts y v) (hfin : (x + y).isFinite = true) :
    Counts (x + y) (sumUnits u v) := by
  obtain ⟨s, hsum, hsign⟩ := hx.exists_add_eq hy
  rw [hsum] at hfin ⊢
  have hcount := counts_ofRatio hfin
  rwa [← hsign] at hcount

/-- The units of a product: those of the factors, multiplied, taken back to units and rounded. -/
def productUnits (u v : ℤ) : ℤ := onMagnitude (Precision.double.round · unitsPerOne) (u * v)

theorem productUnits_mono {w : ℤ} (h : u * v ≤ u * w) : productUnits u v ≤ productUnits u w :=
  onMagnitude_mono (Precision.double.monotone_round unitsPerOne_pos) h

theorem Counts.exists_mul_eq (hx : Counts x u) (hy : Counts y v) : ∃ s,
    x * y = ofRatio s (u * v).natAbs unitsPerOne ∧ u * v = if s then -((u * v).natAbs : ℤ) else (u * v).natAbs := by
  obtain ⟨s, m, hm, rfl, rfl⟩ := hx
  obtain ⟨t, n, hn, rfl, rfl⟩ := hy
  rw [finite_mul_finite]
  refine ⟨s ^^ t, ?_, ?_⟩ <;> cases s <;> cases t <;> simp [Int.natAbs_mul]

theorem Counts.isFinite_mul_iff (hx : Counts x u) (hy : Counts y v) :
    (x * y).isFinite = true ↔ (productUnits u v).natAbs < Precision.double.limit := by
  obtain ⟨s, hproduct, -⟩ := hx.exists_mul_eq hy
  rw [hproduct, isFinite_ofRatio_iff_round_lt, productUnits, natAbs_onMagnitude]

theorem Counts.mul (hx : Counts x u) (hy : Counts y v) (hfin : (x * y).isFinite = true) :
    Counts (x * y) (productUnits u v) := by
  obtain ⟨s, hproduct, hsign⟩ := hx.exists_mul_eq hy
  rw [hproduct] at hfin ⊢
  have hcount := counts_ofRatio hfin
  rwa [← hsign] at hcount

theorem counts_one : Counts 1 unitsPerOne := one_eq ▸ counts_finite false fitsDouble_unitsPerOne

theorem Counts.neg (hx : Counts x u) : Counts (-x) (-u) := by
  obtain ⟨s, n, hn, rfl, rfl⟩ := hx
  refine ⟨!s, n, hn, rfl, ?_⟩
  cases s <;> simp

theorem two_eq : ∃ h, (2 : Binary64) = finite false (2 * unitsPerOne) h := by
  have hfits : FitsDouble (2 * unitsPerOne) := ⟨by decide +kernel, by decide +kernel⟩
  exact ⟨hfits, ofRatio_fits false hfits⟩

theorem round_half_le {m : ℕ} (hm : Precision.double.Aligned m) : Precision.double.round m 2 ≤ m := by
  calc Precision.double.round m 2 ≤ Precision.double.round m 1 :=
        Precision.double.round_mono (by decide) Nat.one_pos (by omega)
    _ = m := Precision.double.round_of_aligned hm

/-- Half of a double is rounded to the nearest double. -/
theorem Counts.half {m : ℕ} (hx : Counts x m) : Counts (x / 2) (Precision.double.round m 2 : ℕ) := by
  have hlt : Precision.double.round m 2 < Precision.double.limit := by
    have hfits : FitsDouble m := hx.fits
    exact (round_half_le hfits.aligned).trans_lt hfits.below
  obtain ⟨s, n, hn, rfl, hm⟩ := hx
  obtain ⟨htwo, heq⟩ := two_eq
  have hne : 2 * unitsPerOne ≠ 0 := Nat.mul_ne_zero (by decide) unitsPerOne_pos.ne'
  have hquotient : finite s n hn / 2 = ofRatio s n 2 := by
    rw [heq]
    show (if 2 * unitsPerOne = 0 then _ else ofRatio (s ^^ false) (n * unitsPerOne) (2 * unitsPerOne)) = _
    rw [if_neg hne, Bool.xor_false, Nat.mul_comm n, Nat.mul_comm 2, ofRatio_mul_left unitsPerOne_pos]
  obtain rfl : m = n := by
    cases s with
    | false => simpa using hm
    | true =>
      simp only [if_true] at hm
      omega
  have hcount := counts_ofRatio (isFinite_ofRatio_iff_round_lt (s := s).mpr hlt)
  rwa [← hquotient, ← hm, onMagnitude_natCast] at hcount

/-- Twice a double is not rounded. -/
theorem Counts.two_mul {m : ℕ} (hx : Counts x m) (hfin : (2 * x).isFinite = true) : Counts (2 * x) (2 * m : ℕ) := by
  obtain ⟨htwo, heq⟩ := two_eq
  have hcount : Counts 2 (2 * unitsPerOne : ℕ) := heq ▸ counts_finite false htwo
  have hfits : FitsDouble m := hx.fits
  have hround : Precision.double.round (unitsPerOne * (2 * m)) unitsPerOne = 2 * m := by
    calc Precision.double.round (unitsPerOne * (2 * m)) unitsPerOne
        = Precision.double.round (unitsPerOne * (2 * m)) (unitsPerOne * 1) := by rw [Nat.mul_one]
      _ = Precision.double.round (2 * m) 1 := Precision.double.round_mul_left unitsPerOne_pos _ _
      _ = 2 * m := Precision.double.round_of_aligned (Precision.double.aligned_two_mul hfits.aligned)
  have hproduct : productUnits (2 * unitsPerOne : ℕ) m = (2 * m : ℕ) := by
    have hnum : (2 * unitsPerOne : ℕ) * (m : ℤ) = (unitsPerOne * (2 * m) : ℕ) := by
      push_cast
      ring
    rw [productUnits, hnum, onMagnitude_natCast, hround]
  rw [← hproduct]
  exact hcount.mul hx hfin

end Binary64

end PlaneSketch
