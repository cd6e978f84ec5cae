import Mathlib.Algebra.Order.Archimedean.Basic
import Mathlib.Tactic.GCongr
import PlaneSketch.Proofs.Binary64.Distance
import PlaneSketch.Proofs.Transform.Exact
import PlaneSketch.Proofs.Transform.Identity

/-!
# Transforms that are close to each other

Two transforms are close if all corresponding entries are: equal in value, or finite and no further apart than the
tolerance. The comparison looks at the second entry alone to see whether it is finite; since a finite tolerance does
not reach from an infinity to a finite entry, it does not matter which of the two is looked at.

In rational numbers closeness says how far apart the images of a point can be, and nothing else. In double precision the
differences of the coefficients are rounded before they are compared, which makes the tolerance wider by one part in
`2 ^ 53` at most.

* `closeEntry_iff`: entries that are close.
* `isClose_of_beq`, `isClose_comm`, `isClose_mono`, `isClose_eq_false`: closeness as a relation.
* `isCloseExactly_iff_imagesWithin`: closeness in rational numbers, as a bound on images.
* `isClose_of_exactly`, `isCloseExactly_of_isClose`, `isClose_iff_exactly`: what rounding the differences changes.
* `closeness_is_tolerance`: all of it together.
-/

namespace PlaneSketch

open Binary64

/-! ### Related entries -/

namespace Matrix

variable {K : Type} {r s : K → K → Bool} {m n : Matrix K}

theorem related_comm (h : ∀ x y, r x y = s y x) (m n : Matrix K) : m.related r n = n.related s m := by
  simp only [related, h]

theorem related_mono (h : ∀ x y, r x y = true → s x y = true) (hr : m.related r n = true) :
    m.related s n = true := by
  simp only [related, Bool.and_eq_true] at hr ⊢
  obtain ⟨⟨⟨⟨h₁, h₂⟩, h₃⟩, ⟨h₄, h₅⟩, h₆⟩, ⟨h₇, h₈⟩, h₉⟩ := hr
  exact ⟨⟨⟨⟨h _ _ h₁, h _ _ h₂⟩, h _ _ h₃⟩, ⟨h _ _ h₄, h _ _ h₅⟩, h _ _ h₆⟩, ⟨h _ _ h₇, h _ _ h₈⟩, h _ _ h₉⟩

end Matrix

namespace Transform

/-- Where the last rows are related, the coefficients decide. -/
theorem related_iff {K : Type} [Zero K] [One K] [BEq K] {r : K → K → Bool} {t u : Transform K}
    (hx : r t.matrix.bottom.x u.matrix.bottom.x = true) (hy : r t.matrix.bottom.y u.matrix.bottom.y = true)
    (hz : r t.matrix.bottom.z u.matrix.bottom.z = true) :
    t.matrix.related r u.matrix = true ↔ ∀ xy ∈ t.coefficients.zip u.coefficients, r xy.1 xy.2 = true := by
  simp only [Matrix.related, hx, hy, hz, Bool.and_eq_true, coefficients, a, b, c, d, e, f, List.zip_cons_cons,
    List.zip_nil_right, List.forall_mem_cons, and_true]
  constructor
  · rintro ⟨⟨⟨ha, hc⟩, he⟩, ⟨hb, hd⟩, hf⟩
    exact ⟨ha, hb, hc, hd, he, hf, List.forall_mem_nil _⟩
  · rintro ⟨ha, hb, hc, hd, he, hf, -⟩
    exact ⟨⟨⟨ha, hc⟩, he⟩, ⟨hb, hd⟩, hf⟩

variable {t u : Transform Binary64} {tol tol' x y : Binary64}

/-! ### Close entries -/

theorem closeEntry_of_beq (h : (x == y) = true) : closeEntry tol x y = true := by
  rw [closeEntry, h, Bool.or_true]

theorem closeEntry_mono (htol : tol ≤ tol') (h : closeEntry tol x y = true) : closeEntry tol' x y = true := by
  simp only [closeEntry, Bool.or_eq_true, Bool.and_eq_true, decide_eq_true_eq] at h ⊢
  exact h.imp_left fun ⟨hle, hy⟩ => ⟨Binary64.le_trans hle htol, hy⟩

/-- Entries that are close to each other without being equal are both finite. -/
theorem closeEntry_iff (htol : tol.isFinite = true) : closeEntry tol x y = true ↔
    (x.isFinite = true ∧ y.isFinite = true ∧ (x - y).abs ≤ tol) ∨ (x == y) = true := by
  simp only [closeEntry, Bool.or_eq_true, Bool.and_eq_true, decide_eq_true_eq]
  refine or_congr_left ?_
  constructor
  · rintro ⟨hle, hy⟩
    exact ⟨isFinite_of_abs_sub_le hy htol hle, hy, hle⟩
  · rintro ⟨-, hy, hle⟩
    exact ⟨hle, hy⟩

theorem closeEntry_comm (htol : tol.isFinite = true) (x y : Binary64) :
    closeEntry tol x y = closeEntry tol y x := by
  rw [Bool.eq_iff_iff, closeEntry_iff htol, closeEntry_iff htol, Binary64.beq_comm]
  refine or_congr_left ?_
  constructor <;> rintro ⟨hx, hy, hle⟩ <;> exact ⟨hy, hx, abs_sub_comm hx hy ▸ hle⟩

theorem ne_nan_of_closeEntry (htol : tol.isFinite = true) (h : closeEntry tol x y = true) : x ≠ nan ∧ y ≠ nan := by
  rcases (closeEntry_iff htol).mp h with ⟨hx, hy, -⟩ | hequal
  · exact ⟨ne_nan_of_isFinite hx, ne_nan_of_isFinite hy⟩
  · exact ⟨(beq_iff_alike.mp hequal).2, (beq_iff_alike.mp (Binary64.beq_comm x y ▸ hequal)).2⟩

theorem isFinite_eq_of_closeEntry (htol : tol.isFinite = true) (h : closeEntry tol x y = true) :
    x.isFinite = y.isFinite := by
  rcases (closeEntry_iff htol).mp h with ⟨hx, hy, -⟩ | hequal
  · rw [hx, hy]
  · exact (beq_iff_alike.mp hequal).1.isFinite_eq

/-! ### Closeness as a relation -/

theorem isClose_iff : t.isClose u tol = true ↔
    ∀ xy ∈ t.coefficients.zip u.coefficients, closeEntry tol xy.1 xy.2 = true := by
  obtain ⟨htx, hty, htz⟩ := Triple.same_unit_iff.mp t.bottom_same
  obtain ⟨hux, huy, huz⟩ := Triple.same_unit_iff.mp u.bottom_same
  refine related_iff (closeEntry_of_beq ?_) (closeEntry_of_beq ?_) (closeEntry_of_beq ?_)
  · exact Binary64.beq_of_alike (.inr ⟨htx, hux⟩) (isFinite_of_isZero hux)
  · exact Binary64.beq_of_alike (.inr ⟨hty, huy⟩) (isFinite_of_isZero huy)
  · rw [htz, huz]
    exact SelfEqualUnits.one_beq_one

theorem isClose_of_beq (h : (t == u) = true) : t.isClose u tol = true :=
  Matrix.related_mono (fun _ _ => closeEntry_of_beq) h

theorem isClose_comm (htol : tol.isFinite = true) (t u : Transform Binary64) : t.isClose u tol = u.isClose t tol :=
  Matrix.related_comm (closeEntry_comm htol) _ _

theorem isClose_mono (htol : tol ≤ tol') (h : t.isClose u tol = true) : t.isClose u tol' = true :=
  Matrix.related_mono (fun _ _ => closeEntry_mono htol) h

theorem isClose_eq_false (htol : tol.isFinite = true)
    (h : nan ∈ t.coefficients ∨ nan ∈ u.coefficients ∨
      ∃ xy ∈ t.coefficients.zip u.coefficients, xy.1.isFinite ≠ xy.2.isFinite) : t.isClose u tol = false := by
  have hfst : (t.coefficients.zip u.coefficients).map Prod.fst = t.coefficients := List.map_fst_zip le_rfl
  have hsnd : (t.coefficients.zip u.coefficients).map Prod.snd = u.coefficients := List.map_snd_zip le_rfl
  rw [← Bool.not_eq_true, isClose_iff]
  intro hclose
  rcases h with hnan | hnan | ⟨xy, hxy, hne⟩
  · rw [← hfst, List.mem_map] at hnan
    obtain ⟨xy, hxy, hx⟩ := hnan
    exact (ne_nan_of_closeEntry htol (hclose xy hxy)).1 hx
  · rw [← hsnd, List.mem_map] at hnan
    obtain ⟨xy, hxy, hy⟩ := hnan
    exact (ne_nan_of_closeEntry htol (hclose xy hxy)).2 hy
  · exact hne (isFinite_eq_of_closeEntry htol (hclose xy hxy))

/-! ### Bounds of affine functions -/

section Affine

variable {α γ κ δ : ℚ}

/-- A slope above `δ` would leave the bound behind at some whole number of one sign or the other. -/
theorem abs_slope_le (h : ∀ x : ℚ, |α * x + κ| ≤ δ * (|x| + 1)) : |α| ≤ δ := by
  by_contra hlt
  have hgap : 0 < |α| - δ := sub_pos.mpr (not_le.mp hlt)
  obtain ⟨n, hn⟩ := exists_nat_gt (δ / (|α| - δ))
  rw [div_lt_iff₀ hgap] at hn
  have hboth : |2 * (α * n)| ≤ 2 * (δ * (n + 1)) := by
    have hpos := h n
    have hneg := h (-n)
    rw [abs_neg] at hneg
    rw [Nat.abs_cast] at hpos hneg
    calc |2 * (α * n)| = |α * n + κ - (α * -n + κ)| := by
          congr 1
          ring
      _ ≤ |α * n + κ| + |α * -n + κ| := abs_sub _ _
      _ ≤ 2 * (δ * (n + 1)) := by linarith
  rw [abs_mul, abs_mul, abs_two, Nat.abs_cast] at hboth
  linarith

theorem forall_abs_affine_le_iff :
    (∀ x y : ℚ, |α * x + γ * y + κ| ≤ δ * (|x| + |y| + 1)) ↔ |α| ≤ δ ∧ |γ| ≤ δ ∧ |κ| ≤ δ := by
  constructor
  · intro h
    have hx : ∀ x : ℚ, |α * x + κ| ≤ δ * (|x| + 1) := fun x => by simpa using h x 0
    have hy : ∀ y : ℚ, |γ * y + κ| ≤ δ * (|y| + 1) := fun y => by simpa using h 0 y
    have hκ : |κ| ≤ δ := by simpa using h 0 0
    exact ⟨abs_slope_le hx, abs_slope_le hy, hκ⟩
  · rintro ⟨hα, hγ, hκ⟩ x y
    calc |α * x + γ * y + κ| ≤ |α * x| + |γ * y| + |κ| := abs_add_three _ _ _
      _ = |α| * |x| + |γ| * |y| + |κ| := by rw [abs_mul, abs_mul]
      _ ≤ δ * |x| + δ * |y| + δ := by gcongr
      _ = δ * (|x| + |y| + 1) := by ring

end Affine

/-! ### Closeness in rational numbers -/

/-- Whether two rational numbers are within `tol` of each other or equal: both are finite anyway. -/
def closeEntryExactly (tol x y : ℚ) : Bool := decide (|x - y| ≤ tol) || x == y

/-- Whether all entries are equal up to a tolerance, with differences that are not rounded. -/
def isCloseExactly (t u : Transform ℚ) (tol : ℚ) : Bool := t.matrix.related (closeEntryExactly tol) u.matrix

/-- The images of every point `(x, y)` are at most `δ * (|x| + |y| + 1)` apart in each coordinate. -/
def ImagesWithin (t u : Transform ℚ) (δ : ℚ) : Prop := ∀ p : Point ℚ,
  |(t.apply p).x - (u.apply p).x| ≤ δ * (|p.x| + |p.y| + 1) ∧
    |(t.apply p).y - (u.apply p).y| ≤ δ * (|p.x| + |p.y| + 1)

variable {T U : Transform ℚ} {p q ε : ℚ}

theorem closeEntryExactly_iff (hε : 0 ≤ ε) : closeEntryExactly ε p q = true ↔ |p - q| ≤ ε := by
  simp only [closeEntryExactly, Bool.or_eq_true, decide_eq_true_eq, beq_iff_eq, or_iff_left_iff_imp]
  rintro rfl
  rwa [sub_self, abs_zero]

theorem isCloseExactly_iff (hε : 0 ≤ ε) : T.isCloseExactly U ε = true ↔
    ∀ pq ∈ T.coefficients.zip U.coefficients, |pq.1 - pq.2| ≤ ε := by
  have hself : ∀ x, closeEntryExactly ε x x = true := fun x => by
    rwa [closeEntryExactly_iff hε, sub_self, abs_zero]
  rw [isCloseExactly, related_iff]
  · simp only [closeEntryExactly_iff hε]
  all_goals
    rw [T.bottom_eq, U.bottom_eq]
    exact hself _

theorem imagesWithin_iff : T.ImagesWithin U ε ↔
    (∀ x y, |(T.a - U.a) * x + (T.c - U.c) * y + (T.e - U.e)| ≤ ε * (|x| + |y| + 1)) ∧
      ∀ x y, |(T.b - U.b) * x + (T.d - U.d) * y + (T.f - U.f)| ≤ ε * (|x| + |y| + 1) := by
  have hsub : ∀ α β γ δ κ μ x y : ℚ, α * x + γ * y + κ - (β * x + δ * y + μ) =
      (α - β) * x + (γ - δ) * y + (κ - μ) := fun α β γ δ κ μ x y => by ring
  simp only [ImagesWithin, apply_eq, hsub, forall_and]
  exact and_congr ⟨fun h x y => h ⟨x, y⟩, fun h p => h p.x p.y⟩ ⟨fun h x y => h ⟨x, y⟩, fun h p => h p.x p.y⟩

/-- **In rational numbers** transforms are close exactly if the images of every point are. -/
theorem isCloseExactly_iff_imagesWithin (hε : 0 ≤ ε) : T.isCloseExactly U ε = true ↔ T.ImagesWithin U ε := by
  rw [isCloseExactly_iff hε, imagesWithin_iff, forall_abs_affine_le_iff, forall_abs_affine_le_iff]
  simp only [coefficients, List.zip_cons_cons, List.zip_nil_right, List.forall_mem_cons]
  constructor
  · rintro ⟨ha, hb, hc, hd, he, hf, -⟩
    exact ⟨⟨ha, hc, he⟩, hb, hd, hf⟩
  · rintro ⟨⟨ha, hc, he⟩, hb, hd, hf⟩
    exact ⟨ha, hb, hc, hd, he, hf, List.forall_mem_nil _⟩

/-! ### Exact values of transforms -/

/-- The coefficients of a transform in double precision have exact values, and these are the coefficients of `T`. -/
def Denotes (t : Transform Binary64) (T : Transform ℚ) : Prop :=
  t.coefficients.map Binary64.rational? = T.coefficients.map some

instance : Decidable (t.Denotes T) := inferInstanceAs (Decidable (_ = _))

theorem Denotes.unique (h : t.Denotes T) (h' : t.Denotes U) : T = U :=
  ext_coefficients (List.map_injective_iff.mpr (Option.some_injective ℚ) (h.symm.trans h'))

theorem exists_denotes (ht : t.isFinite = true) : ∃ T, t.Denotes T := by
  simp only [isFinite, coefficients, List.all_cons, List.all_nil, Bool.and_true, Bool.and_eq_true,
    ← Binary64.exists_rational_iff] at ht
  obtain ⟨⟨a, ha⟩, ⟨b, hb⟩, ⟨c, hc⟩, ⟨d, hd⟩, ⟨e, he⟩, f, hf⟩ := ht
  refine ⟨ofCoefficients a b c d e f, ?_⟩
  simp only [Denotes, coefficients, List.map_cons, List.map_nil, ha, hb, hc, hd, he, hf]
  rfl

section Exact

variable (ht : t.Denotes T) (hu : u.Denotes U)
include ht hu

theorem map_pairs_of_denotes :
    (t.coefficients.zip u.coefficients).map (Prod.map Binary64.rational? Binary64.rational?) =
      (T.coefficients.zip U.coefficients).map (Prod.map some some) := by
  rw [← List.zip_map, ← List.zip_map, ht, hu]

theorem exists_pair_of_exact {pq : ℚ × ℚ} (hpq : pq ∈ T.coefficients.zip U.coefficients) :
    ∃ xy ∈ t.coefficients.zip u.coefficients, xy.1.rational? = some pq.1 ∧ xy.2.rational? = some pq.2 := by
  have hmem := List.mem_map_of_mem (f := Prod.map some some) hpq
  rw [← map_pairs_of_denotes ht hu, List.mem_map] at hmem
  obtain ⟨xy, hxy, hvalues⟩ := hmem
  exact ⟨xy, hxy, Prod.mk.inj hvalues⟩

theorem exists_exact_of_pair {xy : Binary64 × Binary64} (hxy : xy ∈ t.coefficients.zip u.coefficients) :
    ∃ pq ∈ T.coefficients.zip U.coefficients, xy.1.rational? = some pq.1 ∧ xy.2.rational? = some pq.2 := by
  have hmem := List.mem_map_of_mem (f := Prod.map Binary64.rational? Binary64.rational?) hxy
  rw [map_pairs_of_denotes ht hu, List.mem_map] at hmem
  obtain ⟨pq, hpq, hvalues⟩ := hmem
  exact ⟨pq, hpq, Prod.mk.inj hvalues.symm⟩

end Exact

/-! ### Rounded differences -/

theorem closeEntry_iff_abs_sub_le (hx : x.rational? = some p) (hy : y.rational? = some q)
    (htol : tol.rational? = some ε) (hε : 0 ≤ ε) : closeEntry tol x y = true ↔ (x - y).abs ≤ tol := by
  have hxfin := Binary64.exists_rational_iff.mp ⟨p, hx⟩
  have hyfin := Binary64.exists_rational_iff.mp ⟨q, hy⟩
  rw [closeEntry_iff (Binary64.exists_rational_iff.mp ⟨ε, htol⟩), beq_iff_of_rational hx hy]
  constructor
  · rintro (⟨-, -, hle⟩ | rfl)
    · exact hle
    · exact abs_sub_le_of_rational hx hy htol (by rwa [sub_self, abs_zero])
  · exact fun hle => .inl ⟨hxfin, hyfin, hle⟩

section Rounded

variable (ht : t.Denotes T) (hu : u.Denotes U) (htol : tol.rational? = some ε) (hε : 0 ≤ ε)
include ht hu htol hε

theorem isClose_iff_abs_sub_le : t.isClose u tol = true ↔
    ∀ xy ∈ t.coefficients.zip u.coefficients, (xy.1 - xy.2).abs ≤ tol := by
  rw [isClose_iff]
  refine forall₂_congr fun xy hxy => ?_
  obtain ⟨pq, -, hx, hy⟩ := exists_exact_of_pair ht hu hxy
  exact closeEntry_iff_abs_sub_le hx hy htol hε

/-- What is close without rounding is close with it. -/
theorem isClose_of_exactly (h : T.isCloseExactly U ε = true) : t.isClose u tol = true := by
  rw [isCloseExactly_iff hε] at h
  rw [isClose_iff_abs_sub_le ht hu htol hε]
  intro xy hxy
  obtain ⟨pq, hpq, hx, hy⟩ := exists_exact_of_pair ht hu hxy
  exact abs_sub_le_of_rational hx hy htol (h pq hpq)

/-- What is close with rounding is close without it, up to one part in `2 ^ 53` of the tolerance. -/
theorem isCloseExactly_of_isClose (h : t.isClose u tol = true) :
    T.isCloseExactly U (ε * (1 + 1 / 2 ^ 53)) = true := by
  rw [isClose_iff_abs_sub_le ht hu htol hε] at h
  rw [isCloseExactly_iff (by positivity)]
  intro pq hpq
  obtain ⟨xy, hxy, hx, hy⟩ := exists_pair_of_exact ht hu hpq
  exact rational_le_of_abs_sub_le hx hy htol (h xy hxy)

/-- Where the differences are doubles, rounding changes nothing. -/
theorem isClose_iff_exactly (hvalues : ∀ pq ∈ T.coefficients.zip U.coefficients, IsValue (pq.1 - pq.2)) :
    t.isClose u tol = true ↔ T.isCloseExactly U ε = true := by
  refine ⟨fun h => ?_, isClose_of_exactly ht hu htol hε⟩
  rw [isClose_iff_abs_sub_le ht hu htol hε] at h
  rw [isCloseExactly_iff hε]
  intro pq hpq
  obtain ⟨xy, hxy, hx, hy⟩ := exists_pair_of_exact ht hu hpq
  exact (abs_sub_le_iff_of_isValue hx hy htol (hvalues pq hpq)).mp (h xy hxy)

end Rounded

/-- **Closeness** is a tolerance relation: transforms that are equal in value are close, at a finite tolerance closeness
is symmetric, a wider tolerance keeps it, and a finite one does not bring a transform close that has a coefficient of
`nan` or is infinite where the other one is finite. For finite transforms, closeness with differences that are not
rounded says exactly that the images of every point are within the tolerance, in the measure of `ImagesWithin`. It
implies closeness with rounded differences, is the same where the differences are doubles, and otherwise follows from it
with a tolerance that is wider by one part in `2 ^ 53`. -/
theorem closeness_is_tolerance :
    (∀ (t u : Transform Binary64) (tol : Binary64), (t == u) = true → t.isClose u tol = true) ∧
    (∀ (t u : Transform Binary64) (tol : Binary64), tol.isFinite = true → t.isClose u tol = u.isClose t tol) ∧
    (∀ (t u : Transform Binary64) (tol tol' : Binary64), tol ≤ tol' → t.isClose u tol = true →
      t.isClose u tol' = true) ∧
    (∀ (t u : Transform Binary64) (tol : Binary64), tol.isFinite = true →
      (nan ∈ t.coefficients ∨ nan ∈ u.coefficients ∨
        ∃ xy ∈ t.coefficients.zip u.coefficients, xy.1.isFinite ≠ xy.2.isFinite) → t.isClose u tol = false) ∧
    ∀ (t u : Transform Binary64) (tol : Binary64), t.isFinite = true → u.isFinite = true → tol.isFinite = true →
      0 ≤ tol → ∃ T U ε, t.Denotes T ∧ u.Denotes U ∧ tol.rational? = some ε ∧
        (T.isCloseExactly U ε = true ↔ T.ImagesWithin U ε) ∧
        (T.isCloseExactly U ε = true → t.isClose u tol = true) ∧
        (t.isClose u tol = true → T.ImagesWithin U (ε * (1 + 1 / 2 ^ 53))) ∧
        ((∀ pq ∈ T.coefficients.zip U.coefficients, IsValue (pq.1 - pq.2)) →
          (t.isClose u tol = true ↔ T.isCloseExactly U ε = true)) := by
  refine ⟨fun t u tol => isClose_of_beq, fun t u tol htol => isClose_comm htol t u,
    fun t u tol tol' => isClose_mono, fun t u tol => isClose_eq_false, ?_⟩
  intro t u tol ht hu htol hpos
  obtain ⟨T, hT⟩ := exists_denotes ht
  obtain ⟨U, hU⟩ := exists_denotes hu
  obtain ⟨ε, hε⟩ := Binary64.exists_rational_iff.mpr htol
  have hnonneg : 0 ≤ ε := (le_iff_of_rational rational_zero hε).mp hpos
  refine ⟨T, U, ε, hT, hU, hε, isCloseExactly_iff_imagesWithin hnonneg, isClose_of_exactly hT hU hε hnonneg, ?_,
    isClose_iff_exactly hT hU hε hnonneg⟩
  intro hclose
  rw [← isCloseExactly_iff_imagesWithin (by positivity)]
  exact isCloseExactly_of_isClose hT hU hε hnonneg hclose

/-- The identity, a short shift and an infinite one. -/
theorem shifts_near_and_far :
    let near : Transform Binary64 := translation (ofFraction 1 (2 ^ 40)) 0
    let far : Transform Binary64 := translation (infinite false) 0
    let tol : Binary64 := ofFraction 1 (2 ^ 30)
    ((far == far) = true ∧ far.isClose far tol = true) ∧
    (tol.isFinite = true ∧ identity.isClose near tol = true ∧ near.isClose identity tol = true) ∧
    (tol ≤ 1 ∧ identity.isClose near 1 = true) ∧ identity.isClose far tol = false ∧
    (near.isFinite = true ∧ (identity : Transform ℚ).ImagesWithin (translation (1 / 2 ^ 40) 0) (1 / 2 ^ 30)) := by
  intro near far tol
  obtain ⟨hequal, hsymm, hmono, hfalse, hexact⟩ := closeness_is_tolerance
  have hself : (far == far) = true := by decide +kernel
  have htol : tol.isFinite = true := by decide +kernel
  have hone : tol ≤ 1 := by decide +kernel
  have hnear : identity.isClose near tol = true := by decide +kernel
  have hfinite : near.isFinite = true := by decide +kernel
  have hfar : ∃ xy ∈ (identity : Transform Binary64).coefficients.zip far.coefficients,
      xy.1.isFinite ≠ xy.2.isFinite := by decide +kernel
  refine ⟨⟨hself, hequal far far tol hself⟩, ⟨htol, hnear, hsymm identity near tol htol ▸ hnear⟩,
    ⟨hone, hmono identity near tol 1 hone hnear⟩, hfalse identity far tol htol (.inr (.inr hfar)), hfinite, ?_⟩
  obtain ⟨T, U, ε, hT, hU, hε, himages, -, -, hvalues⟩ :=
    hexact identity near tol isFinite_identity hfinite htol (by decide +kernel)
  have hT' : (identity : Transform Binary64).Denotes identity := by decide +kernel
  have hU' : near.Denotes (translation (1 / 2 ^ 40) 0) := by decide +kernel
  have hε' : tol.rational? = some (1 / 2 ^ 30) := by decide +kernel
  obtain rfl := hT.unique hT'
  obtain rfl := hU.unique hU'
  obtain rfl : ε = 1 / 2 ^ 30 := Option.some.inj (hε.symm.trans hε')
  have hdifferences : ∀ pq ∈ (identity : Transform ℚ).coefficients.zip (translation (1 / 2 ^ 40) 0).coefficients,
      pq.1 - pq.2 = 0 ∨ pq.1 - pq.2 = -((2 ^ 9 : ℕ) / 2 ^ 49) := by decide +kernel
  refine himages.mp ((hvalues fun pq hpq => ?_).mp hnear)
  rcases hdifferences pq hpq with hzero | hshift
  · rw [hzero]
    exact isValue_zero
  · rw [hshift]
    exact (isValue_natCast_div (by norm_num)).neg

end Transform

end PlaneSketch
