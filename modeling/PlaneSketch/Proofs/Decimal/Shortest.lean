import PlaneSketch.Decimal.Shortest
import PlaneSketch.Proofs.Decimal.Value

/-!
# The shortest decimal of a double

The search for the shortest decimal ends with one that reads back as the double it started from, since the value
itself lies on the last grid. It takes the coarsest grid on which any decimal reads back: all quotients between
two that round to the same double round to it as well, so on each grid it is enough to look at the two
neighbours of the value. No decimal with fewer digits reads back, because a power of ten would stand between the
two.

* `shortest_readsAs`: the shortest decimal reads back.
* `exponent_le_shortest`: no decimal on a coarser grid does.
* `length_digits_shortest_le`: no decimal with fewer digits does.
-/

namespace PlaneSketch.Decimal

open Binary64

variable {s : Bool} {n : Nat} {h : FitsDouble n}

/-! ### Reading back -/

theorem readsAs_iff {d : Decimal} : d.ReadsAs (finite s n h) ↔ d.toBinary64 s = finite s n h := Iff.rfl

theorem exact_readsAs : (exact n).ReadsAs (finite s n h) := by
  obtain ⟨m, p, hm, hp, hpow⟩ : ∃ m p : Nat, m = 1074 ∧ Nat.pow 5 1074 = p ∧ p * unitsPerOne = Nat.pow 10 m :=
    ⟨1074, Nat.pow 5 1074, rfl, rfl, by decide +kernel⟩
  have hexact : exact n = ⟨n * p, ((0 : Nat) : Int) - m⟩ := by
    unfold exact
    rw [hp, hm]
    rfl
  have hnum : n * p * 10 ^ 0 * unitsPerOne = 10 ^ m * n := by
    rw [Nat.pow_zero, Nat.mul_one, Nat.mul_assoc, hpow, Nat.mul_comm]
    rfl
  rw [readsAs_iff, hexact, toBinary64_eq_ofRatio, hnum]
  calc ofRatio s (10 ^ m * n) (10 ^ m) = ofRatio s (10 ^ m * n) (10 ^ m * 1) := by rw [Nat.mul_one]
    _ = ofRatio s n 1 := ofRatio_mul_left (Nat.pow_pos (by decide)) s n 1
    _ = finite s n h := ofRatio_fits s h

theorem shortestFrom_readsAs (fuel : Nat) (e : Int) :
    (shortestFrom (finite s n h) n fuel e).ReadsAs (finite s n h) := by
  induction fuel generalizing e with
  | zero => exact exact_readsAs
  | succ fuel ih =>
    unfold shortestFrom
    split
    · rename_i d hd
      simpa using List.find?_some hd
    · exact ih (e - 1)

/-- The shortest decimal of a double reads back as that double. -/
theorem shortest_readsAs : (shortest (finite s n h) n).ReadsAs (finite s n h) := by
  unfold shortest
  by_cases hn : n = 0
  · rw [if_pos hn, readsAs_iff]
    subst hn
    exact ofRatio_fits s h
  · rw [if_neg hn, readsAs_iff, toBinary64_trim]
    exact shortestFrom_readsAs _ _

/-! ### Decimals between two decimals -/

/-- Where two decimals read as the same double, so does every one between them. -/
theorem readsAs_of_between {x : Binary64} {c₁ c c₂ a₁ a a₂ b : Nat} (h₁ : ReadsAs x ⟨c₁, (a₁ : Int) - b⟩)
    (h₂ : ReadsAs x ⟨c₂, (a₂ : Int) - b⟩) (hlow : c₁ * 10 ^ a₁ ≤ c * 10 ^ a) (hhigh : c * 10 ^ a ≤ c₂ * 10 ^ a₂) :
    ReadsAs x ⟨c, (a : Int) - b⟩ := by
  have hb : 0 < 10 ^ b := Nat.pow_pos (by decide)
  unfold ReadsAs at *
  rw [toBinary64_eq_ofRatio] at *
  exact ofRatio_eq_of_between hb hb hb h₁ h₂ (Nat.mul_le_mul_right _ (Nat.mul_le_mul_right _ hlow))
    (Nat.mul_le_mul_right _ (Nat.mul_le_mul_right _ hhigh))

/-! ### Looking at one grid -/

theorem inSteps_eq (n : Nat) (e : Int) :
    inSteps n e = (n * 10 ^ (-e).toNat, unitsPerOne * 10 ^ e.toNat) := by
  cases e with
  | ofNat e =>
    have he : (-(e : Int)).toNat = 0 := by omega
    show (n, unitsPerOne * Nat.pow 10 e) = (n * 10 ^ (-(e : Int)).toNat, unitsPerOne * 10 ^ (e : Int).toNat)
    rw [he, Nat.pow_zero, Nat.mul_one, Int.toNat_natCast]
    rfl
  | negSucc k =>
    show (n * Nat.pow 10 (k + 1), unitsPerOne) = (n * 10 ^ (k + 1), unitsPerOne * 10 ^ 0)
    rw [Nat.pow_zero, Nat.mul_one]
    rfl

/-- The grid points at the floor of a value and above it are its neighbours. -/
theorem mem_neighbours {c : Nat} {e : Int} (hlow : n * 10 ^ (-e).toNat / (unitsPerOne * 10 ^ e.toNat) ≤ c)
    (hhigh : c ≤ n * 10 ^ (-e).toNat / (unitsPerOne * 10 ^ e.toNat) + 1) : ⟨c, e⟩ ∈ neighbours n e := by
  have hpos : 0 < unitsPerOne * 10 ^ e.toNat := Nat.mul_pos unitsPerOne_pos (Nat.pow_pos (by decide))
  have hle := le_nearest (n * 10 ^ (-e).toNat) (unitsPerOne * 10 ^ e.toNat)
  have hsucc := nearest_le_succ (n * 10 ^ (-e).toNat) (unitsPerOne * 10 ^ e.toNat)
  simp only [neighbours, inSteps_eq, ← Nat.le_div_iff_mul_le hpos, List.mem_cons, Decimal.mk.injEq, and_true,
    List.not_mem_nil, or_false]
  split <;> omega

/-- If any decimal on a grid reads back, so does a neighbour of the value there. -/
theorem exists_neighbour_readsAs {c : Nat} {e : Int} (hc : ReadsAs (finite s n h) ⟨c, e⟩) :
    ∃ d ∈ neighbours n e, d.ReadsAs (finite s n h) := by
  obtain ⟨a, b, ha, hb, he⟩ : ∃ a b : Nat, a = e.toNat ∧ b = (-e).toNat ∧ e = a - b :=
    ⟨e.toNat, (-e).toNat, rfl, rfl, by omega⟩
  have hstep : 0 < unitsPerOne * 10 ^ a := Nat.mul_pos unitsPerOne_pos (Nat.pow_pos (by decide))
  have hden : 0 < 10 ^ b := Nat.pow_pos (by decide)
  have hself : ofRatio s n 1 = finite s n h := ofRatio_fits s h
  have hreads : ∀ k, ReadsAs (finite s n h) ⟨k, e⟩ ↔
      ofRatio s (k * (unitsPerOne * 10 ^ a)) (10 ^ b) = finite s n h := fun k => by
    rw [readsAs_iff, he, toBinary64_eq_ofRatio, Nat.mul_assoc, Nat.mul_comm (10 ^ a)]
  obtain ⟨q, hq⟩ : ∃ q, n * 10 ^ b / (unitsPerOne * 10 ^ a) = q := ⟨_, rfl⟩
  have hbelow : q * (unitsPerOne * 10 ^ a) ≤ n * 10 ^ b := by
    rw [← hq]
    exact Nat.div_mul_le_self _ _
  have habove : n * 10 ^ b ≤ (q + 1) * (unitsPerOne * 10 ^ a) :=
    Nat.le_of_lt ((Nat.div_lt_iff_lt_mul hstep).mp (by omega))
  rw [hreads] at hc
  rw [ha, hb] at hq
  -- the neighbour on the same side lies between the value and the decimal, and rounding is monotone
  rcases Nat.lt_or_ge q c with hlt | hge
  · refine ⟨⟨q + 1, e⟩, mem_neighbours (by omega) (by omega), (hreads _).mpr ?_⟩
    have hcoarse : (q + 1) * (unitsPerOne * 10 ^ a) ≤ c * (unitsPerOne * 10 ^ a) := Nat.mul_le_mul_right _ hlt
    exact ofRatio_eq_of_between Nat.one_pos hden hden hself hc (by omega) (Nat.mul_le_mul_right _ hcoarse)
  · refine ⟨⟨q, e⟩, mem_neighbours (by omega) (by omega), (hreads _).mpr ?_⟩
    have hcoarse : c * (unitsPerOne * 10 ^ a) ≤ q * (unitsPerOne * 10 ^ a) := Nat.mul_le_mul_right _ hge
    exact ofRatio_eq_of_between hden hden Nat.one_pos hc hself (Nat.mul_le_mul_right _ hcoarse) (by omega)

/-- The search that goes down to the last grid takes the coarsest grid on which a decimal reads back. -/
theorem exponent_le_shortestFrom {fuel : Nat} {start : Int} (hstart : start = fuel - 1074) {d : Decimal}
    (hd : d.ReadsAs (finite s n h)) (hle : d.exponent ≤ start) :
    d.exponent ≤ (shortestFrom (finite s n h) n fuel start).exponent := by
  -- the fuel and the first grid go down together, so that the search ends where every double is exact
  induction fuel generalizing start with
  | zero =>
    have hexact : (exact n).exponent = -1074 := rfl
    rw [shortestFrom, hexact]
    omega
  | succ fuel ih =>
    unfold shortestFrom
    split
    · rename_i found hfound
      have hexponent : found.exponent = start := by
        have hmem := List.mem_of_find?_eq_some hfound
        simp only [neighbours, List.mem_cons, List.not_mem_nil, or_false] at hmem
        rcases hmem with rfl | rfl <;> rfl
      rw [hexponent]
      exact hle
    · -- a decimal on the grid that is passed over would have had a neighbour that reads back
      rename_i hnone
      have hne : d.exponent ≠ start := by
        rintro rfl
        obtain ⟨k, hk, hreads⟩ := exists_neighbour_readsAs hd
        exact List.find?_eq_none.mp hnone k hk (by simpa using hreads)
      have hbefore : start - 1 = fuel - 1074 := by omega
      exact ih hbefore (by omega)

/-! ### The coarsest grid -/

/-- Powers are compared through powers of their bases. -/
theorem pow_le_pow_of_mul_le {p q i j m a : Nat} (hq : 0 < q) (hi : i ≠ 0) (hbase : p ^ i ≤ q ^ j)
    (hexponent : j * m ≤ i * a) : p ^ m ≤ q ^ a := by
  refine (Nat.pow_le_pow_iff_left hi).mp ?_
  calc (p ^ m) ^ i = (p ^ i) ^ m := Nat.pow_right_comm p m i
    _ ≤ (q ^ j) ^ m := Nat.pow_le_pow_left hbase m
    _ = q ^ (j * m) := (Nat.pow_mul q j m).symm
    _ ≤ q ^ (i * a) := Nat.pow_le_pow_right hq hexponent
    _ = (q ^ a) ^ i := by rw [Nat.mul_comm, Nat.pow_mul]

/-- The power of ten at which the search starts is above the value. -/
theorem lt_coarsest (n : Nat) {a b : Nat} (ha : a = (coarsest n).toNat) (hb : b = (-coarsest n).toNat) :
    n * 10 ^ b < 10 ^ a * unitsPerOne := by
  obtain ⟨m, hm, hunits⟩ : ∃ m, m = 1074 ∧ unitsPerOne = Nat.pow 2 m := ⟨1074, rfl, by decide +kernel⟩
  have hlog : n < 2 ^ (n.log2 + 1) := Nat.lt_log2_self
  have hunits : unitsPerOne = 2 ^ m := hunits
  have hten : 0 < 10 ^ b := Nat.pow_pos (by decide)
  unfold coarsest at ha hb
  rcases Nat.lt_or_ge n.log2 1073 with hlt | hge
  · -- the value is below one, and the binary digits before its first one make up for the power of ten
    have hpow : 10 ^ b ≤ 2 ^ (1073 - n.log2) :=
      pow_le_pow_of_mul_le (i := 8651) (j := 28738) (by decide) (by decide) (by decide +kernel) (by omega)
    have ha0 : a = 0 := by omega
    have hsum : n.log2 + 1 + (1073 - n.log2) = m := by omega
    calc n * 10 ^ b < 2 ^ (n.log2 + 1) * 10 ^ b := Nat.mul_lt_mul_of_pos_right hlog hten
      _ ≤ 2 ^ (n.log2 + 1) * 2 ^ (1073 - n.log2) := Nat.mul_le_mul_left _ hpow
      _ = 10 ^ a * unitsPerOne := by
          rw [← Nat.pow_add, hsum, ha0, Nat.pow_zero, Nat.one_mul, hunits]
  · have hpow : 2 ^ (n.log2 - 1073) ≤ 10 ^ a :=
      pow_le_pow_of_mul_le (i := 13301) (j := 4004) (by decide) (by decide) (by decide +kernel) (by omega)
    have hb0 : b = 0 := by omega
    have hsum : n.log2 - 1073 + m = n.log2 + 1 := by omega
    calc n * 10 ^ b = n := by rw [hb0, Nat.pow_zero, Nat.mul_one]
      _ < 2 ^ (n.log2 + 1) := hlog
      _ = 2 ^ (n.log2 - 1073) * 2 ^ m := by rw [← Nat.pow_add, hsum]
      _ ≤ 10 ^ a * unitsPerOne := by
          rw [hunits]
          exact Nat.mul_le_mul_right _ hpow

/-- No decimal that reads back lies on a coarser grid than that at which the search starts. -/
theorem exponent_le_coarsest (hn : n ≠ 0) {d : Decimal} (hd : d.ReadsAs (finite s n h)) :
    d.exponent ≤ coarsest n := by
  obtain ⟨c, e⟩ := d
  by_contra hlt
  obtain ⟨a, b, ha, hb, hab⟩ : ∃ a b : Nat, a = (coarsest n).toNat ∧ b = (-coarsest n).toNat ∧
      coarsest n = a - b :=
    ⟨_, _, rfl, rfl, by omega⟩
  have hcoarser : coarsest n < e := Int.not_le.mp hlt
  obtain ⟨k, he⟩ : ∃ k : Nat, e = ((a + k + 1 : Nat) : Int) - b := ⟨(e - coarsest n - 1).toNat, by omega⟩
  rw [readsAs_iff, he, toBinary64_eq_ofRatio] at hd
  have hc : 1 ≤ c := by
    rw [Nat.one_le_iff_ne_zero]
    rintro rfl
    rw [Nat.zero_mul, Nat.zero_mul, ofRatio_eq_finite_iff, Precision.round_zero] at hd
    exact hn hd.2.symm
  -- such a decimal is at least twice the value, which is a double of its own
  have hpow : 10 ^ (a + 1) ≤ c * 10 ^ (a + k + 1) :=
    Nat.le_trans (Nat.pow_le_pow_right (by decide) (by omega)) (Nat.le_mul_of_pos_left _ hc)
  have htwice : 2 * n * 10 ^ b ≤ c * 10 ^ (a + k + 1) * unitsPerOne * 1 := by
    calc 2 * n * 10 ^ b = 2 * (n * 10 ^ b) := Nat.mul_assoc _ _ _
      _ ≤ 10 * (10 ^ a * unitsPerOne) := Nat.mul_le_mul (by decide) (Nat.le_of_lt (lt_coarsest n ha hb))
      _ = 10 ^ (a + 1) * unitsPerOne := by rw [Nat.pow_succ', Nat.mul_assoc]
      _ ≤ c * 10 ^ (a + k + 1) * unitsPerOne := Nat.mul_le_mul_right _ hpow
      _ = c * 10 ^ (a + k + 1) * unitsPerOne * 1 := (Nat.mul_one _).symm
  have hdouble : ofRatio s (2 * n) 1 = finite s n h :=
    ofRatio_eq_of_between Nat.one_pos Nat.one_pos (Nat.pow_pos (by decide)) (ofRatio_fits s h) hd (by omega) htwice
  rw [ofRatio_eq_finite_iff, Precision.round_of_aligned _ (Precision.aligned_two_mul _ h.aligned)] at hdouble
  omega

/-! ### The shortest decimal -/

theorem exponent_le_trim (d : Decimal) : d.exponent ≤ d.trim.exponent := by
  have hgo : ∀ (fuel c : Nat) (e : Int), e ≤ (trim.go fuel c e).exponent := by
    intro fuel
    induction fuel with
    | zero => exact fun _ _ => Int.le_refl _
    | succ fuel ih =>
      intro c e
      unfold trim.go
      split
      · have := ih (c / 10) (e + 1)
        omega
      · exact Int.le_refl _
  exact hgo _ _ _

/-- No decimal on a coarser grid than that of the shortest one reads back. -/
theorem exponent_le_shortest (hn : n ≠ 0) {d : Decimal} (hd : d.ReadsAs (finite s n h)) :
    d.exponent ≤ (shortest (finite s n h) n).exponent := by
  have hstart : coarsest n = ((coarsest n + 1074).toNat : Int) - 1074 := by
    unfold coarsest
    omega
  unfold shortest
  rw [if_neg hn]
  exact Int.le_trans (exponent_le_shortestFrom hstart hd (exponent_le_coarsest hn hd)) (exponent_le_trim _)

/-- **The shortest decimal**: none with fewer digits reads back as the same double. -/
theorem length_digits_shortest_le {d : Decimal} (hd : d.ReadsAs (finite s n h)) :
    (shortest (finite s n h) n).digits.length ≤ d.digits.length := by
  by_cases hn : n = 0
  · unfold shortest
    rw [if_pos hn]
    exact Nat.length_toDigits_pos
  · have hr : (shortest (finite s n h) n).ReadsAs (finite s n h) := shortest_readsAs
    have hmax : ∀ k : Decimal, k.ReadsAs (finite s n h) → k.exponent ≤ (shortest (finite s n h) n).exponent :=
      fun _ => exponent_le_shortest hn
    generalize shortest (finite s n h) n = r at hr hmax
    obtain ⟨c, e⟩ := r
    obtain ⟨c', e'⟩ := d
    have hle : e' ≤ e := hmax _ hd
    by_contra hlt
    -- were there fewer digits, a power of ten between the two would read back on a coarser grid
    obtain ⟨a, b, a', rfl, rfl⟩ : ∃ a b a' : Nat, e = (a : Int) - b ∧ e' = (a' : Int) - b :=
      ⟨(e - min e' 0).toNat, (-min e' 0).toNat, (e' - min e' 0).toNat, by omega, by omega⟩
    obtain ⟨k, hk⟩ : ∃ k, k = (digits ⟨c', (a' : Int) - b⟩).length := ⟨_, rfl⟩
    have hpos : 0 < k := hk ▸ Nat.length_toDigits_pos
    have hc' : c' < 10 ^ k := (Nat.length_toDigits_le_iff (by decide) hpos).mp (Nat.le_of_eq hk.symm)
    have hc : 10 ^ k ≤ c := by
      rw [← Nat.not_lt, ← Nat.length_toDigits_le_iff (by decide) hpos, hk]
      exact hlt
    have hpower : ReadsAs (finite s n h) ⟨1, ((a + k : Nat) : Int) - b⟩ := by
      refine readsAs_of_between hd hr ?_ ?_
      · calc c' * 10 ^ a' ≤ 10 ^ k * 10 ^ a :=
              Nat.mul_le_mul (Nat.le_of_lt hc') (Nat.pow_le_pow_right (by decide) (by omega))
          _ = 1 * 10 ^ (a + k) := by rw [Nat.one_mul, Nat.add_comm, Nat.pow_add]
      · calc 1 * 10 ^ (a + k) = 10 ^ k * 10 ^ a := by rw [Nat.one_mul, Nat.add_comm, Nat.pow_add]
          _ ≤ c * 10 ^ a := Nat.mul_le_mul_right _ hc
    have hcoarser := hmax _ hpower
    simp only at hcoarser
    omega

end PlaneSketch.Decimal
