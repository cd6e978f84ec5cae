import PlaneSketch.Proofs.Binary64.Special
import PlaneSketch.Proofs.Rounding.Monotone

/-!
# Rounding quotients to doubles

Rounding keeps the order of quotients, so all quotients between two that round to the same double round to it as
well. A quotient from the limit of the range on becomes infinite, one below half the smallest double becomes
zero.

* `ofRatio_eq_of_between`: the quotients that round to a double are without gaps.
* `ofRatio_eq_infinite`, `ofRatio_eq_zero`: overflow and underflow.
-/

namespace PlaneSketch

theorem Precision.aligned_limit {p : Precision} (h : p.finest ≤ p.bound) : p.Aligned p.limit := by
  have hone : 1 ≤ Nat.pow 2 p.digits := Nat.one_le_two_pow
  have hlimit := p.aligned_mul_two_pow h hone
  rw [Nat.one_mul] at hlimit
  unfold limit
  exact hlimit

namespace Binary64

theorem ofRatio_eq_finite_iff {s t : Bool} {num den n : Nat} {hn : FitsDouble n} :
    ofRatio s num den = finite t n hn ↔ s = t ∧ Precision.double.round num den = n := by
  have hbelow := hn.below
  simp only [ofRatio]
  split
  · simp only [finite.injEq]
  · simp only [reduceCtorEq, false_iff, not_and]
    rintro - rfl
    contradiction

theorem ofRatio_eq_infinite_iff {s t : Bool} {num den : Nat} :
    ofRatio s num den = infinite t ↔ s = t ∧ Precision.double.limit ≤ Precision.double.round num den := by
  simp only [ofRatio]
  split
  · rename_i h
    simp only [reduceCtorEq, false_iff, not_and, Nat.not_le]
    exact fun _ => h
  · rename_i h
    rw [Nat.not_lt] at h
    simp only [infinite.injEq, h, and_true]

/-- The quotients that round to a double are without gaps. -/
theorem ofRatio_eq_of_between {s : Bool} {x : Binary64} {m d n e k f : Nat} (hd : 0 < d) (he : 0 < e) (hf : 0 < f)
    (hm : ofRatio s m d = x) (hk : ofRatio s k f = x) (hmn : m * e ≤ n * d) (hnk : n * f ≤ k * e) :
    ofRatio s n e = x := by
  have hlow := Precision.double.round_mono hd he hmn
  have hhigh := Precision.double.round_mono he hf hnk
  cases x with
  | nan => exact absurd hm (ofRatio_ne_nan s m d)
  | infinite t =>
    rw [ofRatio_eq_infinite_iff] at hm ⊢
    exact ⟨hm.1, Nat.le_trans hm.2 hlow⟩
  | finite t u hu =>
    rw [ofRatio_eq_finite_iff] at hm hk ⊢
    refine ⟨hm.1, Nat.le_antisymm ?_ ?_⟩
    · rw [← hk.2]
      exact hhigh
    · rw [← hm.2]
      exact hlow

/-- A quotient from the limit of the range on is infinite. -/
theorem ofRatio_eq_infinite {num den : Nat} (hden : 0 < den) (h : Precision.double.limit * den ≤ num) (s : Bool) :
    ofRatio s num den = infinite s := by
  rw [ofRatio_eq_infinite_iff]
  refine ⟨rfl, ?_⟩
  have haligned : Precision.double.Aligned Precision.double.limit := Precision.aligned_limit (by decide)
  calc Precision.double.limit = Precision.double.round Precision.double.limit 1 :=
        (Precision.double.round_of_aligned haligned).symm
    _ ≤ Precision.double.round num den := Precision.double.round_mono Nat.one_pos hden (by rwa [Nat.mul_one])

theorem ofRatio_zero (s : Bool) (den : Nat) : ofRatio s 0 den = ofRatio s 0 1 := by
  simp only [ofRatio, Precision.round_zero]

/-- A quotient below half the smallest double is zero. -/
theorem ofRatio_eq_zero {num den : Nat} (h : 2 * num < den) (s : Bool) : ofRatio s num den = ofRatio s 0 1 := by
  have hfloor : num / den = 0 := Nat.div_eq_of_lt (by omega)
  have hrest : num % den = num := Nat.mod_eq_of_lt (by omega)
  have hspacing : Precision.double.spacing 0 = 1 := by decide
  have hround : Precision.double.round num den = 0 := by
    simp [Precision.round, hfloor, hspacing, nearest, hrest, h]
  simp only [ofRatio, hround, Precision.round_zero]

end Binary64

end PlaneSketch
