import PlaneSketch.Decimal.Basic
import PlaneSketch.Proofs.Binary64.Order

/-!
# The double nearest to a decimal

Reading a decimal as a double is one rounding of its exact value: the exponents that are decided without forming
the power round to the same infinity or zero. Hence only the value of a decimal matters, not how many zeros
stand at the end of its coefficient.

* `toBinary64_eq_ofRatio`: the exact value that is rounded.
* `toBinary64_mul_pow`, `toBinary64_trim`: zeros at the end may be moved into the exponent.
-/

namespace PlaneSketch.Decimal

open Binary64

/-! ### Powers out of range -/

theorem limit_le_of_large {c e : Nat} (hc : c ≠ 0) (he : 400 ≤ e) :
    Precision.double.limit ≤ c * Nat.pow 10 e * unitsPerOne := by
  obtain ⟨m, hm, hlimit⟩ : ∃ m, m = 400 ∧ Precision.double.limit ≤ Nat.pow 10 m * unitsPerOne :=
    ⟨400, rfl, by decide +kernel⟩
  have hpow : Nat.pow 10 m ≤ c * Nat.pow 10 e :=
    Nat.le_trans (Nat.pow_le_pow_right (by decide) (by omega)) (Nat.le_mul_of_pos_left _ (Nat.pos_of_ne_zero hc))
  exact Nat.le_trans hlimit (Nat.mul_le_mul_right _ hpow)

theorem two_mul_lt_of_small {c k : Nat} (hk : c.log2 + 1100 ≤ k) : 2 * (c * unitsPerOne) < Nat.pow 10 (k + 1) := by
  have hc : c < 2 ^ (c.log2 + 1) := Nat.lt_log2_self
  obtain ⟨m, hm, hpow⟩ : ∃ m, m = 1074 ∧ unitsPerOne = Nat.pow 2 m := ⟨1074, rfl, by decide +kernel⟩
  have hunits : unitsPerOne ≤ 2 ^ (k - c.log2 - 1) := by
    rw [hpow]
    exact Nat.pow_le_pow_right (by decide) (by omega)
  calc 2 * (c * unitsPerOne) ≤ 2 * (c * 2 ^ (k - c.log2 - 1)) :=
        Nat.mul_le_mul_left _ (Nat.mul_le_mul_left _ hunits)
    _ < 2 * (2 ^ (c.log2 + 1) * 2 ^ (k - c.log2 - 1)) :=
        Nat.mul_lt_mul_of_pos_left (Nat.mul_lt_mul_of_pos_right hc (Nat.two_pow_pos _)) (by decide)
    _ = 2 ^ (k + 1) := by rw [← Nat.pow_add, Nat.mul_comm, ← Nat.pow_succ]; congr 1; omega
    _ ≤ 10 ^ (k + 1) := Nat.pow_le_pow_left (by decide) _

/-! ### The exact value -/

theorem toBinary64_ofNat (s : Bool) (c e : Nat) :
    toBinary64 s ⟨c, e⟩ = ofRatio s (c * Nat.pow 10 e * unitsPerOne) 1 := by
  show (if c = 0 then _ else if 400 ≤ e then _ else _) = _
  by_cases hc : c = 0
  · rw [if_pos hc, hc, Nat.zero_mul, Nat.zero_mul]
  · rw [if_neg hc]
    by_cases he : 400 ≤ e
    · rw [if_pos he, ofRatio_eq_infinite Nat.one_pos]
      rw [Nat.mul_one]
      exact limit_le_of_large hc he
    · rw [if_neg he]

theorem toBinary64_negSucc (s : Bool) (c k : Nat) :
    toBinary64 s ⟨c, Int.negSucc k⟩ = ofRatio s (c * unitsPerOne) (Nat.pow 10 (k + 1)) := by
  show (if c = 0 then _ else if c.log2 + 1100 ≤ k then _ else _) = _
  by_cases hc : c = 0
  · rw [if_pos hc, hc, Nat.zero_mul, ofRatio_zero s (Nat.pow 10 (k + 1))]
  · rw [if_neg hc]
    by_cases hk : c.log2 + 1100 ≤ k
    · rw [if_pos hk, ofRatio_eq_zero (two_mul_lt_of_small hk)]
    · rw [if_neg hk]

/-- Reading a decimal rounds its exact value once, in whichever way its exponent is written as a difference. -/
theorem toBinary64_eq_ofRatio (s : Bool) (c a b : Nat) :
    toBinary64 s ⟨c, a - b⟩ = ofRatio s (c * 10 ^ a * unitsPerOne) (10 ^ b) := by
  rcases Nat.lt_or_ge a b with hlt | hle
  · obtain ⟨k, rfl⟩ : ∃ k, b = a + (k + 1) := ⟨b - a - 1, by omega⟩
    have he : ((a : Int) - (a + (k + 1) : Nat)) = Int.negSucc k := by omega
    have hnum : c * 10 ^ a * unitsPerOne = 10 ^ a * (c * unitsPerOne) := by
      rw [Nat.mul_comm c, Nat.mul_assoc]
    rw [he, toBinary64_negSucc, hnum, Nat.pow_add, ofRatio_mul_left (Nat.pow_pos (by decide))]
    rfl
  · obtain ⟨e, rfl⟩ := Nat.exists_eq_add_of_le hle
    have he : (((b + e : Nat) : Int) - b) = (e : Nat) := by omega
    have hnum : c * 10 ^ (b + e) * unitsPerOne = 10 ^ b * (c * 10 ^ e * unitsPerOne) := by
      rw [Nat.pow_add]
      ac_rfl
    calc toBinary64 s ⟨c, ((b + e : Nat) : Int) - b⟩ = ofRatio s (c * 10 ^ e * unitsPerOne) 1 := by
          rw [he, toBinary64_ofNat]
          rfl
      _ = ofRatio s (c * 10 ^ (b + e) * unitsPerOne) (10 ^ b) := by
          rw [hnum, ← ofRatio_mul_left (Nat.pow_pos (by decide) : 0 < 10 ^ b), Nat.mul_one]

/-! ### Zeros at the end -/

/-- Zeros at the end of the coefficient count as much as the exponent they stand for. -/
theorem toBinary64_mul_pow (s : Bool) (c k : Nat) (e : Int) :
    toBinary64 s ⟨c * 10 ^ k, e⟩ = toBinary64 s ⟨c, e + k⟩ := by
  obtain ⟨a, b, rfl⟩ : ∃ a b : Nat, e = a - b := ⟨e.toNat, (-e).toNat, by omega⟩
  have he : (a : Int) - b + k = (k + a : Nat) - b := by omega
  rw [he, toBinary64_eq_ofRatio, toBinary64_eq_ofRatio, Nat.pow_add, Nat.mul_assoc c]

theorem toBinary64_trim_go (s : Bool) (fuel c : Nat) (e : Int) :
    (trim.go fuel c e).toBinary64 s = toBinary64 s ⟨c, e⟩ := by
  induction fuel generalizing c e with
  | zero => rfl
  | succ fuel ih =>
    unfold trim.go
    split
    · rename_i h
      have hc : c / 10 * 10 ^ 1 = c := by omega
      calc (trim.go fuel (c / 10) (e + 1)).toBinary64 s = toBinary64 s ⟨c / 10, e + (1 : Nat)⟩ := ih _ _
        _ = toBinary64 s ⟨c / 10 * 10 ^ 1, e⟩ := (toBinary64_mul_pow s (c / 10) 1 e).symm
        _ = toBinary64 s ⟨c, e⟩ := by rw [hc]
    · rfl

/-- Without the zeros at the end a decimal reads as the same double. -/
theorem toBinary64_trim (s : Bool) (d : Decimal) : d.trim.toBinary64 s = d.toBinary64 s :=
  toBinary64_trim_go s _ _ _

end PlaneSketch.Decimal
