/-!
# Rounding to a grid

`nearest n d` rounds the quotient `n / d` to a whole number, a half going to the even neighbour. A
`Precision` is a family of grids on the nonnegative quantities: its spacing grows with the magnitude so that
a bounded number of binary digits is kept. `Precision.round` takes a quotient to its grid, and
`Precision.round_aligned` says that the result is a point of the grid that belongs to the result itself.
-/

namespace PlaneSketch

/-- The whole number nearest to `n / d`; of two equally near ones, the even one. -/
def nearest (n d : Nat) : Nat :=
  let q := n / d
  let r := n % d
  if 2 * r < d then q else if d < 2 * r then q + 1 else q + q % 2

theorem nearest_le_succ (n d : Nat) : nearest n d ≤ n / d + 1 := by
  unfold nearest
  have : n / d % 2 < 2 := Nat.mod_lt _ (by decide)
  dsimp only
  split
  · omega
  · split <;> omega

theorem le_nearest (n d : Nat) : n / d ≤ nearest n d := by
  unfold nearest
  dsimp only
  split
  · omega
  · split <;> omega

theorem nearest_mul (k : Nat) {d : Nat} (h : 0 < d) : nearest (k * d) d = k := by
  simp [nearest, Nat.mul_div_cancel _ h, h]

/-- A floating grid: `digits` significant binary digits, a smallest spacing of `2 ^ finest`, and finite
quantities below `2 ^ bound`. -/
structure Precision where
  digits : Nat
  finest : Nat
  bound : Nat
  digits_pos : 0 < digits := by decide

namespace Precision

variable (p : Precision)

/-- The exponent of the distance between neighbouring grid points around `n`. -/
def spacingLog (n : Nat) : Nat := max p.finest (n.log2 + 1 - p.digits)

/-- The distance between neighbouring grid points around `n`. -/
def spacing (n : Nat) : Nat := Nat.pow 2 (p.spacingLog n)

/-- The grid point nearest to `n / d`; of two equally near ones, the even one. -/
def round (n d : Nat) : Nat :=
  let s := p.spacing (n / d)
  nearest n (d * s) * s

/-- The first quantity out of range. -/
@[irreducible] def limit : Nat := Nat.pow 2 p.bound

/-- `n` is a point of the grid around it. -/
def Aligned (n : Nat) : Prop := p.spacing n ∣ n

instance (n : Nat) : Decidable (p.Aligned n) := inferInstanceAs (Decidable (_ ∣ _))

theorem spacing_pos (n : Nat) : 0 < p.spacing n := Nat.two_pow_pos _

theorem limit_pos : 0 < p.limit := by
  unfold limit
  exact Nat.two_pow_pos _

theorem limit_lt_limit {p q : Precision} (h : p.bound < q.bound) : p.limit < q.limit := by
  unfold limit
  exact Nat.pow_lt_pow_right (by decide) h

theorem lt_two_pow_spacingLog (n : Nat) : n < Nat.pow 2 (p.digits + p.spacingLog n) := by
  refine Nat.lt_of_lt_of_le Nat.lt_log2_self (Nat.pow_le_pow_right (by decide) ?_)
  unfold spacingLog
  omega

/-- Below `2 ^ (digits + k)` the spacing is at most `2 ^ k`, if `k` is not below the finest one. -/
theorem spacingLog_le_of_lt {n k : Nat} (hk : p.finest ≤ k) (h : n < Nat.pow 2 (p.digits + k)) :
    p.spacingLog n ≤ k := by
  have := p.digits_pos
  unfold spacingLog
  by_cases hn : n = 0
  · subst hn
    simp only [Nat.log2_zero]
    omega
  · have := (Nat.log2_lt hn).2 h
    omega

theorem aligned_mul_two_pow {m k : Nat} (hk : p.finest ≤ k) (hm : m ≤ Nat.pow 2 p.digits) :
    p.Aligned (m * Nat.pow 2 k) := by
  have hp := p.digits_pos
  rcases Nat.lt_or_eq_of_le hm with h | h
  · have hlt : m * 2 ^ k < 2 ^ (p.digits + k) := by
      rw [Nat.pow_add]
      exact Nat.mul_lt_mul_of_pos_right h (Nat.two_pow_pos k)
    exact Nat.dvd_trans (Nat.pow_dvd_pow 2 (p.spacingLog_le_of_lt hk hlt)) (Nat.dvd_mul_left _ _)
  · subst h
    rw [Nat.pow_eq, Nat.pow_eq, ← Nat.pow_add]
    refine Nat.pow_dvd_pow 2 ?_
    unfold spacingLog
    rw [Nat.log2_two_pow]
    omega

theorem round_aligned (n d : Nat) : p.Aligned (p.round n d) := by
  unfold round spacing
  refine p.aligned_mul_two_pow (Nat.le_max_left _ _) ?_
  refine Nat.le_trans (nearest_le_succ _ _) ?_
  rw [← Nat.div_div_eq_div_mul]
  have h := p.lt_two_pow_spacingLog (n / d)
  rw [Nat.pow_eq, Nat.pow_add] at h
  exact Nat.div_lt_of_lt_mul (by rwa [Nat.mul_comm])

/-- A point of the grid is kept. -/
theorem round_of_aligned {n : Nat} (h : p.Aligned n) : p.round n 1 = n := by
  obtain ⟨k, hk⟩ := h
  unfold round
  simp only [Nat.div_one, Nat.one_mul]
  have := nearest_mul k (p.spacing_pos n)
  rw [Nat.mul_comm, ← hk] at this
  rw [this, Nat.mul_comm, ← hk]

end Precision

end PlaneSketch
