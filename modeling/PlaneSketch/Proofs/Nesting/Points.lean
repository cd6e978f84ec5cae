import PlaneSketch.Path
import PlaneSketch.Proofs.Transform.Equality

/-!
# Points from nested lists

The numbers of a regular nesting are read in order, taken over as doubles and mapped two by two. The images are
those of the points one by one, to the last bit: a row times the transposed matrix is the matrix times the column,
because factors commute. Only where a coordinate is an integer beyond the machine words does a single point show the
sign of a zero that a list of points does not show.

* `doubles_eq_ok_iff`, `doubles_eq_error_iff`: when numbers are taken over as doubles.
* `pairs?_eq_some_iff`, `pairs?_eq_none_iff`: how a list falls apart into pairs.
* `applyNesting_of_regular`: what becomes of a regular nesting, and of the points of a path.
-/

namespace PlaneSketch

open Binary64

/-! ### Numbers as doubles -/

theorem doubles_eq_ok_iff {ns : List Number} {xs : List Binary64} :
    doubles ns = .ok xs ↔ ns.map Number.toBinary64? = xs.map some := by
  induction ns generalizing xs with
  | nil => cases xs <;> simp [doubles]
  | cons n ns ih =>
    unfold doubles Number.toBinary64 Number.toBinary64Or
    rw [List.map_cons]
    cases n.toBinary64? with
    | none => cases xs <;> simp [bind, Except.bind]
    | some x =>
      cases xs with
      | nil => cases doubles ns <;> simp [bind, Except.bind]
      | cons y ys =>
        rw [List.map_cons, List.cons.injEq, ← ih]
        cases doubles ns <;> simp [bind, Except.bind]

/-- Numbers are not taken over exactly if one of them is out of range. -/
theorem doubles_eq_error_iff {ns : List Number} {fault : Fault} :
    doubles ns = .error fault ↔ fault = .numberTooLarge ∧ ∃ n ∈ ns, n.toBinary64? = none := by
  induction ns with
  | nil => simp [doubles]
  | cons n ns ih =>
    unfold doubles Number.toBinary64 Number.toBinary64Or
    cases hn : n.toBinary64? with
    | none => simp [bind, Except.bind, hn, eq_comm]
    | some x => cases hns : doubles ns <;> simp_all [bind, Except.bind]

theorem exists_doubles {ns : List Number} (h : ∀ n ∈ ns, ∃ x, n.toBinary64? = some x) :
    ∃ xs, doubles ns = .ok xs := by
  cases hxs : doubles ns with
  | ok xs => exact ⟨xs, rfl⟩
  | error fault =>
    obtain ⟨-, n, hn, hnone⟩ := doubles_eq_error_iff.mp hxs
    obtain ⟨x, hx⟩ := h n hn
    cases hnone.symm.trans hx

/-! ### Pairs -/

section Pairs

variable {α : Type} {xs : List α} {ps : List (α × α)}

/-- The elements of pairs, one after another. -/
def unpaired : List (α × α) → List α
  | [] => []
  | (x, y) :: ps => x :: y :: unpaired ps

theorem length_unpaired (ps : List (α × α)) : (unpaired ps).length = 2 * ps.length := by
  induction ps with
  | nil => rfl
  | cons p ps ih => rw [unpaired, List.length_cons, List.length_cons, List.length_cons, ih, Nat.mul_succ]

theorem getElem?_unpaired {x y : α} {i : Nat} (h : ps[i]? = some (x, y)) :
    (unpaired ps)[2 * i]? = some x ∧ (unpaired ps)[2 * i + 1]? = some y := by
  induction ps generalizing i with
  | nil => simp at h
  | cons p ps ih =>
    cases i with
    | zero =>
      rw [List.getElem?_cons_zero, Option.some.injEq] at h
      subst h
      exact ⟨rfl, rfl⟩
    | succ i => exact ih (by simpa using h)

theorem pairs?_eq_some_iff : pairs? xs = some ps ↔ xs = unpaired ps := by
  induction xs using pairs?.induct generalizing ps with
  | case1 => cases ps <;> simp [pairs?, unpaired]
  | case2 x => cases ps <;> simp [pairs?, unpaired]
  | case3 x y rest ih =>
    cases ps with
    | nil => simp [pairs?, unpaired]
    | cons p ps =>
      obtain ⟨p₁, p₂⟩ := p
      simp only [pairs?, unpaired, Option.map_eq_some_iff, List.cons.injEq, Prod.mk.injEq, ih]
      constructor
      · rintro ⟨qs, hrest, ⟨hx, hy⟩, rfl⟩
        exact ⟨hx, hy, hrest⟩
      · rintro ⟨hx, hy, hrest⟩
        exact ⟨ps, hrest, ⟨hx, hy⟩, rfl⟩

theorem pairs?_eq_none_iff : pairs? xs = none ↔ xs.length % 2 = 1 := by
  induction xs using pairs?.induct with
  | case1 => simp [pairs?]
  | case2 x => simp [pairs?]
  | case3 x y rest ih =>
    rw [pairs?, Option.map_eq_none_iff, ih, List.length_cons, List.length_cons]
    omega

end Pairs

/-- A nesting inside a number of further lists. -/
def Nesting.boxed (n : Nesting) (depth : Nat) : Nesting := Nat.repeat (fun m => .list [m]) depth n

/-! ### Single points -/

namespace Transform

variable {t : Transform Binary64}

/-- The zero in front of a sum of products shows at its end. -/
theorem dot_eq_zero_add_bareDot (u v : Triple Binary64) : u.dot v = 0 + bareDot u v := by
  rw [Triple.dot, bareDot, zero_add_add, zero_add_add]

/-- `p` is the image of the point with two given coordinates: exactly so if both are doubles or integers within a
machine word, and otherwise but for the sign of a negative zero. -/
def MapsTo (t : Transform Binary64) (m n : Number) (p : Point Binary64) : Prop :=
  ∃ q, t.applyNumbers m n = .ok q ∧ p = ⟨0 + q.x, 0 + q.y⟩ ∧ ((m.fitsWord && n.fitsWord) = true → p = q)

theorem mapsTo_apply {m n : Number} {x y : Binary64} (hm : m.toBinary64? = some x) (hn : n.toBinary64? = some y) :
    t.MapsTo m n (t.apply ⟨x, y⟩) := by
  obtain ⟨hx, hy⟩ := noNegZero_apply t ⟨x, y⟩
  refine ⟨_, applyNumbers_eq_ok_iff.mpr ⟨x, y, hm, hn, rfl⟩, ?_, fun hfits => (if_pos hfits).symm⟩
  by_cases hfits : (m.fitsWord && n.fitsWord) = true
  · rw [if_pos hfits, zero_add hx, zero_add hy]
  · rw [if_neg hfits, ← dot_eq_zero_add_bareDot, ← dot_eq_zero_add_bareDot]
    rfl

/-! ### Nested lists -/

/-- What becomes of a regular nesting: its depth is checked, its numbers are taken over and then paired. -/
theorem applyNesting_eq (levels : Nat) {n : Nesting} {shape : List Nat} (hshape : n.shape? = some shape) :
    t.applyNesting n levels =
      if Nesting.TooDeep levels shape then .error .unevenNesting
      else match doubles n.numbers with
        | .error fault => .error fault
        | .ok xs => match pairs? xs with
          | some ps => .ok (ps.map fun p => t.apply ⟨p.1, p.2⟩)
          | none => .error .oddCoordinateCount := by
  unfold applyNesting Nesting.points Nesting.regular
  simp only [hshape]
  by_cases hdepth : Nesting.TooDeep levels shape
  · rw [if_pos hdepth, if_pos hdepth]
    rfl
  · rw [if_neg hdepth, if_neg hdepth]
    cases doubles n.numbers with
    | error fault => rfl
    | ok xs =>
      simp only [Except.map, bind, Except.bind]
      cases pairs? xs with
      | none => rfl
      | some ps => simp only [applyAll_eq_map Binary64.mul_comm, List.map_map, Function.comp_def]

/-- The images of the pairs of numbers, by position. -/
theorem mapsTo_of_getElem? {ns : List Number} {ps : List (Binary64 × Binary64)}
    (hns : ns.map Number.toBinary64? = (unpaired ps).map some) {i : Nat} {p : Point Binary64}
    (hp : (ps.map fun q => t.apply ⟨q.1, q.2⟩)[i]? = some p) :
    ∃ k l, ns[2 * i]? = some k ∧ ns[2 * i + 1]? = some l ∧ t.MapsTo k l p := by
  have hnumber : ∀ {j : Nat} {x : Binary64}, (unpaired ps)[j]? = some x →
      ∃ k, ns[j]? = some k ∧ k.toBinary64? = some x := by
    intro j x hx
    have hj : (ns.map Number.toBinary64?)[j]? = some (some x) := by rw [hns, List.getElem?_map, hx]; rfl
    rw [List.getElem?_map] at hj
    exact Option.map_eq_some_iff.mp hj
  rw [List.getElem?_map] at hp
  obtain ⟨q, hq, rfl⟩ := Option.map_eq_some_iff.mp hp
  -- the pair with index `i` holds the numbers with indices `2 * i` and `2 * i + 1`
  obtain ⟨hfirst, hsecond⟩ := getElem?_unpaired hq
  obtain ⟨k, hk, hkx⟩ := hnumber hfirst
  obtain ⟨l, hl, hly⟩ := hnumber hsecond
  exact ⟨k, l, hk, hl, mapsTo_apply hkx hly⟩

/-- **Lists of points**: a regular nesting that is not too deep and whose numbers are in the range of doubles is
refused exactly if it has an odd number of numbers, and otherwise gives the images of its points in order; a number
out of range and too many levels, however many there may be, are faults of their own. A path's points are mapped one by
one. -/
theorem applyNesting_of_regular (t : Transform Binary64) :
    (∀ levels n shape, n.shape? = some shape →
      (Nesting.TooDeep levels shape → t.applyNesting n levels = .error .unevenNesting) ∧
      (¬ Nesting.TooDeep levels shape → (∃ k ∈ n.numbers, k.toBinary64? = none) →
        t.applyNesting n levels = .error .numberTooLarge) ∧
      (¬ Nesting.TooDeep levels shape → (∀ k ∈ n.numbers, ∃ x, k.toBinary64? = some x) →
        (n.numbers.length % 2 = 1 → t.applyNesting n levels = .error .oddCoordinateCount) ∧
        (n.numbers.length % 2 = 0 → ∃ ps, t.applyNesting n levels = .ok ps ∧ 2 * ps.length = n.numbers.length ∧
          ∀ i p, ps[i]? = some p →
            ∃ k l, n.numbers[2 * i]? = some k ∧ n.numbers[2 * i + 1]? = some l ∧ t.MapsTo k l p))) ∧
    ∀ path : Path Binary64, path.transform = some t →
      path.transformedPoints none = .ok (path.points.map t.apply) := by
  refine ⟨fun levels n shape hshape => ⟨fun hdepth => ?_, fun hdepth hlarge => ?_, fun hdepth hrange => ?_⟩, ?_⟩
  · rw [applyNesting_eq levels hshape, if_pos hdepth]
  · rw [applyNesting_eq levels hshape, if_neg hdepth, doubles_eq_error_iff.mpr ⟨rfl, hlarge⟩]
  · obtain ⟨xs, hxs⟩ := exists_doubles hrange
    have hvalues := doubles_eq_ok_iff.mp hxs
    have hlength : n.numbers.length = xs.length := by simpa using congrArg List.length hvalues
    simp only [applyNesting_eq levels hshape, if_neg hdepth, hxs]
    cases hpairs : pairs? xs with
    | none =>
      have hodd : n.numbers.length % 2 = 1 := by rw [hlength, pairs?_eq_none_iff.mp hpairs]
      exact ⟨fun _ => rfl, fun heven => by omega⟩
    | some ps =>
      obtain rfl := pairs?_eq_some_iff.mp hpairs
      rw [length_unpaired] at hlength
      refine ⟨fun hodd => by omega, fun _ => ⟨_, rfl, ?_, fun i p hp => mapsTo_of_getElem? hvalues hp⟩⟩
      rw [List.length_map, hlength]
  · intro path hpath
    simp only [Path.transformedPoints, Path.transformFor, hpath, applyAll_eq_map Binary64.mul_comm, bind, Except.bind]

/-- Two rows with an infinity and a `nan`, a single number, a pair inside too many lists, a pair with a number out of
range, and a path of one point. -/
theorem points_of_two_rows :
    let t : Transform Binary64 := scaling 2 3
    let rows : Nesting :=
      .list [.list [.number (.int 1), .number (.real negZero)],
        .list [.number (.real (.infinite true)), .number (.real .nan)]]
    (rows.shape? = some [2, 2] ∧ ∃ ps, t.applyNesting rows = .ok ps ∧ ps.length = 2 ∧
      ∀ p, ps[1]? = some p → t.MapsTo (.real (.infinite true)) (.real .nan) p) ∧
    ((Nesting.number (.int 1)).shape? = some [] ∧
      t.applyNesting (.number (.int 1)) = .error .oddCoordinateCount) ∧
    (Nesting.TooDeep Nesting.documentedLevels (List.replicate 65 1) ∧
      t.applyNesting (Nesting.boxed (.number (.int 1)) 65) = .error .unevenNesting) ∧
    (Number.toBinary64? (.int (10 ^ 400)) = none ∧
      t.applyNesting (.list [.number (.int (10 ^ 400)), .number (.int 0)]) = .error .numberTooLarge) ∧
    (⟨[⟨1, 1⟩], some t, .black⟩ : Path Binary64).transformedPoints none = .ok [t.apply ⟨1, 1⟩] := by
  intro t rows
  obtain ⟨hnesting, hpath⟩ := applyNesting_of_regular t
  have hshape : rows.shape? = some [2, 2] := by decide
  have hrange : ∀ k ∈ rows.numbers, ∃ x, k.toBinary64? = some x := by
    have hsome : ∀ k ∈ rows.numbers, k.toBinary64?.isSome = true := by decide +kernel
    exact fun k hk => Option.isSome_iff_exists.mp (hsome k hk)
  have hdeep : (Nesting.boxed (.number (.int 1)) 65).shape? = some (List.replicate 65 1) := by decide +kernel
  have hlarge : Number.toBinary64? (.int (10 ^ 400)) = none := by decide +kernel
  obtain ⟨ps, hps, hlength, himages⟩ := ((hnesting Nesting.documentedLevels rows _ hshape).2.2 (by decide) hrange).2 (by decide)
  refine ⟨⟨hshape, ps, hps, ?_, ?_⟩, ⟨rfl, ?_⟩, ⟨by decide, ?_⟩, ⟨hlarge, ?_⟩, hpath _ rfl⟩
  · have hfour : rows.numbers.length = 4 := by decide
    omega
  · intro p hp
    obtain ⟨k, l, hk, hl, hmaps⟩ := himages 1 p hp
    cases hk
    cases hl
    exact hmaps
  · refine ((hnesting Nesting.documentedLevels _ _ rfl).2.2 (by decide) ?_).1 (by decide)
    simp only [Nesting.numbers, List.mem_singleton, forall_eq]
    exact Option.isSome_iff_exists.mp (by decide +kernel)
  · exact (hnesting Nesting.documentedLevels _ _ hdeep).1 (by decide)
  · exact (hnesting Nesting.documentedLevels _ [2] rfl).2.1 (by decide) ⟨_, List.mem_cons_self, hlarge⟩

/-- Regular nestings of two numbers whose one point is not the image of the two: inside 64 further lists, with an
integer out of the range of doubles, and with an integer beyond the machine words. -/
theorem pairs_unlike_single_points :
    let deep : Nesting := Nesting.boxed (.list [.number (.int 1), .number (.int 2)]) 64
    let large : Nesting := .list [.number (.int (10 ^ 400)), .number (.int 0)]
    let far : Nesting := .list [.number (.int (2 ^ 64)), .number (.int 1)]
    let t : Transform Binary64 := ofCoefficients negZero 0 negZero 0 negZero 0
    (deep.shape? = some (List.replicate 64 1 ++ [2]) ∧ deep.numbers.length = 2 ∧
      t.applyNesting deep = .error .unevenNesting) ∧
    (large.shape? = some [2] ∧ t.applyNesting large = .error .numberTooLarge) ∧
    far.shape? = some [2] ∧ t.applyNumbers (.int (2 ^ 64)) (.int 1) = .ok ⟨negZero, 0⟩ ∧
      t.applyNesting far = .ok [⟨0, 0⟩] ∧ (⟨negZero, 0⟩ : Point Binary64) ≠ ⟨0, 0⟩ := by
  decide +kernel

end Transform

end PlaneSketch
