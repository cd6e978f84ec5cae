import PlaneSketch.Color.Basic
import PlaneSketch.Proofs.Binary64.Narrowing
import PlaneSketch.Proofs.Color.Normalized

/-!
# Colours from components

A list of three or four numbers, none above one, makes a colour whose red, green and blue are in range up to half a
millionth. Alpha is only bounded from above: what was given below zero stays below it.

* `exists_rational_toSingle`: components in range stay in range in single precision.
* `ofComponents_outcomes`: what comes of a list of numbers.
-/

namespace PlaneSketch

open Binary64

/-! ### Single precision -/

namespace Rgb

variable {E T X : ℚ} {x : Binary64}

/-- The lower end of the range is rounded inwards. -/
theorem exists_rational_lower_toSingle : ∃ v, (-tolerance).toSingle.rational? = some v ∧ -5 / 10 ^ 7 ≤ v := by
  have hfin : (-tolerance).toSingle.isFinite = true := by decide +kernel
  obtain ⟨u, hu⟩ := exists_counts hfin
  have hbound : ((-tolerance).toSingle.units?.any fun u => decide (-(5 * unitsPerOne : ℤ) ≤ 10 ^ 7 * u)) = true := by
    decide +kernel
  rw [hu.units, Option.any_some, decide_eq_true_eq] at hbound
  have hbound : -(5 * unitsPerOne : ℚ) ≤ 10 ^ 7 * u := by exact_mod_cast hbound
  refine ⟨_, hu.rational, ?_⟩
  rw [div_le_div_iff₀ (by norm_num) cast_unitsPerOne_pos]
  linarith

/-- A single precision number above one, but not above the range. -/
theorem exists_rational_upper_toSingle : ∃ y : Binary64, y.rational? = some (1 + 1 / 2 ^ 21) ∧ y.toSingle = y := by
  have hvalue : IsValue (1 + 1 / 2 ^ 21) := by
    have hvalue := isValue_natCast_div (k := 2 ^ 49 + 2 ^ 28) (by norm_num)
    norm_num at hvalue ⊢
    exact hvalue
  have hround : IsRounding (ofFraction 2097153 2097152) (1 + 1 / 2 ^ 21) := by
    have hround := isRounding_ofFraction 2097153 (by decide : 0 < 2097152)
    norm_num at hround ⊢
    exact hround
  obtain ⟨v, hv, -⟩ := hround.exists_near (by norm_num) (by norm_num)
  exact ⟨_, hv.eq hvalue ▸ hv.value, by decide +kernel⟩

/-- Components in range stay in range in single precision. -/
theorem exists_rational_toSingle (hrange : Range E T) (hx : x.rational? = some X) (hlow : -E ≤ X)
    (hhigh : X ≤ 1 + 1 / 2 ^ 21) :
    ∃ v, x.toSingle.rational? = some v ∧ -5 / 10 ^ 7 ≤ v ∧ v ≤ 1 + 5 / 10 ^ 7 := by
  obtain ⟨low, hlowest, hlow'⟩ := exists_rational_lower_toSingle
  obtain ⟨y, hy, hsingle⟩ := exists_rational_upper_toSingle
  have hbelow := toSingle_mono ((le_iff_of_rational (rational_neg hrange.tolerance) hx).mpr hlow)
  have habove := toSingle_mono ((le_iff_of_rational hx hy).mpr hhigh)
  rw [hsingle] at habove
  obtain ⟨v, hv, hv0, hv1⟩ := exists_rational_of_between hlowest hy hbelow habove
  exact ⟨v, hv, hlow'.trans hv0, hv1.trans (by norm_num)⟩

end Rgb

/-! ### Numbers at most one -/

namespace Number

variable {n : Number} {x : Binary64}

theorem le_one_of_isAtMostOne (hn : n.isAtMostOne = true) (hx : n.toBinary64? = some x) : x ≤ 1 := by
  cases n with
  | int i =>
    have hi : i * unitsPerOne ≤ unitsPerOne := by simpa [isAtMostOne, units?] using hn
    have hone : onMagnitude (Precision.double.round · 1) (unitsPerOne : ℤ) = unitsPerOne := by
      rw [onMagnitude_natCast, Precision.double.round_of_aligned fitsDouble_unitsPerOne.aligned]
    rw [(counts_of_intCast hx).le_iff counts_one]
    exact (onMagnitude_mono (Precision.double.monotone_round Nat.one_pos) hi).trans_eq hone
  | real z =>
    obtain rfl : z = x := Option.some.inj hx
    obtain ⟨u, hu, hle⟩ : ∃ u, z.units? = some u ∧ u ≤ unitsPerOne := by
      simpa [isAtMostOne, units?, Option.any_eq_true] using hn
    exact le_iff_exists_units.mpr ⟨u, _, hu, counts_one.units, hle⟩

end Number

/-! ### Three components and alpha -/

namespace ColorSpec

variable {cs : List Number} {r g b a : Number} {x y z w : Binary64}

theorem ofRgbAlpha_of_none (h : ∃ n ∈ [r, g, b], n.toBinary64? = none) :
    ofRgbAlpha (r, g, b) a = .error .numberTooLarge := by
  unfold ofRgbAlpha Number.toBinary64 Number.toBinary64Or
  cases hr : r.toBinary64? with
  | none => rfl
  | some x =>
    cases hg : g.toBinary64? with
    | none => rfl
    | some y =>
      cases hb : b.toBinary64? with
      | none => rfl
      | some z => simp [hr, hg, hb] at h

theorem ofRgbAlpha_of_some (hr : r.toBinary64? = some x) (hg : g.toBinary64? = some y) (hb : b.toBinary64? = some z) :
    ofRgbAlpha (r, g, b) a = (do
      let c ← (Rgb.mk x y z).normalized
      .ok (Color.ofRgb c (← a.toBinary64Or .alphaTooLarge).toSingle)) := by
  simp only [ofRgbAlpha, Number.toBinary64, Number.toBinary64Or, hr, hg, hb, bind, Except.bind]

/-- A list of three or four numbers, none above one, is three components and an alpha, which is one if it is left
out. -/
theorem exists_parts (hone : ∀ n ∈ cs, n.isAtMostOne = true) (hlength : cs.length = 3 ∨ cs.length = 4) :
    ∃ r g b a, cs.take 3 = [r, g, b] ∧ (∀ n ∈ [r, g, b, a], n.isAtMostOne = true) ∧
      ofComponents cs = ofRgbAlpha (r, g, b) a ∧ (cs[3]? = some a ∨ cs[3]? = none ∧ a = .int 1) := by
  have hone' : (Number.int 1).isAtMostOne = true := by decide +kernel
  have hall : (!cs.all Number.isAtMostOne) = false := by simpa using hone
  unfold ofComponents
  rw [hall]
  rcases hlength with hlength | hlength
  · obtain ⟨r, g, b, rfl⟩ := List.length_eq_three.mp hlength
    refine ⟨r, g, b, .int 1, rfl, ?_, rfl, .inr ⟨rfl, rfl⟩⟩
    simp only [List.forall_mem_cons] at hone ⊢
    exact ⟨hone.1, hone.2.1, hone.2.2.1, hone', hone.2.2.2⟩
  · obtain ⟨r, cs, rfl⟩ := List.exists_cons_of_length_eq_add_one hlength
    obtain ⟨g, b, a, rfl⟩ := List.length_eq_three.mp (Nat.succ.inj hlength)
    exact ⟨r, g, b, a, rfl, hone, rfl, .inl rfl⟩

theorem channels_le_one (hone : ∀ n ∈ [r, g, b], n.isAtMostOne = true)
    (hxyz : [r, g, b].map Number.toBinary64? = [some x, some y, some z]) : ∀ v ∈ (Rgb.mk x y z).channels, v ≤ 1 := by
  obtain ⟨hr, hg, hb⟩ : r.toBinary64? = some x ∧ g.toBinary64? = some y ∧ b.toBinary64? = some z := by simpa using hxyz
  simp only [List.forall_mem_cons] at hone
  simp only [Rgb.channels, List.forall_mem_cons]
  exact ⟨Number.le_one_of_isAtMostOne hone.1 hr, Number.le_one_of_isAtMostOne hone.2.1 hg,
    Number.le_one_of_isAtMostOne hone.2.2.1 hb, by simp⟩

/-- The faults of three components and an alpha, none above one. -/
theorem ofRgbAlpha_fault {fault : Fault} (h : ofRgbAlpha (r, g, b) a = .error fault) :
    (fault = .numberTooLarge ∧ ∃ n ∈ [r, g, b], n.toBinary64? = none) ∨
    ∃ x y z, [r, g, b].map Number.toBinary64? = [some x, some y, some z] ∧
      ((Rgb.mk x y z).normalized = .error fault ∨ fault = .alphaTooLarge ∧ a.toBinary64? = none) := by
  by_cases hnone : ∃ n ∈ [r, g, b], n.toBinary64? = none
  · rw [ofRgbAlpha_of_none hnone, Except.error.injEq] at h
    exact .inl ⟨h.symm, hnone⟩
  · have hsome : ∀ n ∈ [r, g, b], ∃ x, n.toBinary64? = some x := fun n hn =>
      Option.ne_none_iff_exists'.mp fun hno => hnone ⟨n, hn, hno⟩
    obtain ⟨x, hr⟩ := hsome r (by simp)
    obtain ⟨y, hg⟩ := hsome g (by simp)
    obtain ⟨z, hb⟩ := hsome b (by simp)
    rw [ofRgbAlpha_of_some hr hg hb] at h
    refine .inr ⟨x, y, z, by simp [hr, hg, hb], ?_⟩
    cases hnormalized : (Rgb.mk x y z).normalized with
    | error fault' =>
      simp only [hnormalized, bind, Except.bind, Except.error.injEq] at h
      exact .inl (by rw [h])
    | ok c =>
      cases ha : a.toBinary64? with
      | none =>
        simp only [hnormalized, Number.toBinary64Or, ha, bind, Except.bind, Except.error.injEq] at h
        exact .inr ⟨h.symm, rfl⟩
      | some w => simp [hnormalized, Number.toBinary64Or, ha, bind, Except.bind] at h

/-- The colour of three components and an alpha that are not refused. -/
theorem exists_of_ofRgbAlpha {k : Color} (h : ofRgbAlpha (r, g, b) a = .ok k) :
    ∃ x y z w c, [r, g, b].map Number.toBinary64? = [some x, some y, some z] ∧ a.toBinary64? = some w ∧
      (Rgb.mk x y z).normalized = .ok c ∧ k = Color.ofRgb c w.toSingle := by
  obtain ⟨x, hr, h⟩ := exists_of_bind_eq_ok h
  obtain ⟨y, hg, h⟩ := exists_of_bind_eq_ok h
  obtain ⟨z, hb, h⟩ := exists_of_bind_eq_ok h
  obtain ⟨c, hc, h⟩ := exists_of_bind_eq_ok h
  obtain ⟨w, ha, h⟩ := exists_of_bind_eq_ok h
  have hw : a.toBinary64? = some w := by
    unfold Number.toBinary64Or at ha
    split at ha <;> simp_all
  refine ⟨x, y, z, w, c, ?_, hw, hc, (Except.ok.inj h).symm⟩
  simp [Number.toBinary64_eq_ok_iff.mp hr, Number.toBinary64_eq_ok_iff.mp hg, Number.toBinary64_eq_ok_iff.mp hb]

/-- A list with a number above one, a list of the wrong length, or three components and an alpha. -/
theorem ofComponents_cases (cs : List Number) :
    (ofComponents cs = .error (.componentAboveOne cs) ∧ ∃ n ∈ cs, n.isAtMostOne = false) ∨
    (∀ n ∈ cs, n.isAtMostOne = true) ∧
      ((ofComponents cs = .error (.componentCount cs) ∧ cs.length ≠ 3 ∧ cs.length ≠ 4) ∨
      (cs.length = 3 ∨ cs.length = 4) ∧ ∃ r g b a, cs.take 3 = [r, g, b] ∧
        (∀ n ∈ [r, g, b, a], n.isAtMostOne = true) ∧ ofComponents cs = ofRgbAlpha (r, g, b) a ∧
        (cs[3]? = some a ∨ cs[3]? = none ∧ a = .int 1)) := by
  by_cases hone : ∀ n ∈ cs, n.isAtMostOne = true
  · refine .inr ⟨hone, ?_⟩
    by_cases hlength : cs.length = 3 ∨ cs.length = 4
    · exact .inr ⟨hlength, exists_parts hone hlength⟩
    · rw [not_or] at hlength
      have hall : (!cs.all Number.isAtMostOne) = false := by simpa using hone
      refine .inl ⟨?_, hlength⟩
      unfold ofComponents
      rw [hall]
      split
      · contradiction
      · split <;> simp_all
  · have hall : (!cs.all Number.isAtMostOne) = true := by simpa using hone
    refine .inl ⟨?_, by simpa using hone⟩
    unfold ofComponents
    rw [hall]
    rfl

/-! ### Outcomes -/

/-- A colour of components that are not refused: red, green and blue are in range, and alpha is at most one. It is below
zero exactly if what was given is, unless that is too little to be told from zero in single precision. -/
theorem ofRgbAlpha_range {k : Color} (hone : ∀ n ∈ [r, g, b, a], n.isAtMostOne = true)
    (h : ofRgbAlpha (r, g, b) a = .ok k) :
    (∀ x ∈ [k.red, k.green, k.blue], ∃ v, x.rational? = some v ∧ -5 / 10 ^ 7 ≤ v ∧ v ≤ 1 + 5 / 10 ^ 7) ∧
      k.alpha ≤ 1 ∧ ∃ w, a.toBinary64? = some w ∧ (0 ≤ k.alpha ↔ -halfLeastSingle ≤ w) := by
  obtain ⟨E, T, hrange⟩ := Rgb.exists_range
  obtain ⟨x, y, z, w, c, hxyz, ha, hc, rfl⟩ := exists_of_ofRgbAlpha h
  have hcomponents : ∀ n ∈ [r, g, b], n.isAtMostOne = true := fun n hn => hone n (by simp at hn ⊢; tauto)
  have hwithin := Rgb.normalized_within hrange (channels_le_one hcomponents hxyz) hc
  have hsingle : ∀ v ∈ c.channels, ∃ u, v.toSingle.rational? = some u ∧ -5 / 10 ^ 7 ≤ u ∧ u ≤ 1 + 5 / 10 ^ 7 := by
    intro v hv
    obtain ⟨V, hV, hlow, hhigh⟩ := hwithin v hv
    exact Rgb.exists_rational_toSingle hrange hV hlow hhigh
  -- narrowing is monotone and keeps one
  have halpha : w.toSingle ≤ 1 := by
    have hkept : (1 : Binary64).toSingle = 1 := by decide +kernel
    have hle := toSingle_mono (Number.le_one_of_isAtMostOne (hone a (by simp)) ha)
    rwa [hkept] at hle
  have hall : ∀ v ∈ c.channels.map toSingle, ∃ u, v.rational? = some u ∧ -5 / 10 ^ 7 ≤ u ∧ u ≤ 1 + 5 / 10 ^ 7 :=
    List.forall_mem_map.mpr hsingle
  exact ⟨hall, halpha, w, ha, toSingle_nonneg_iff⟩

theorem ofRgbAlpha_fault_cases {fault : Fault} (h : ofRgbAlpha (r, g, b) a = .error fault) :
    (∃ k x, fault = .componentOutOfRange k x) ∨ (∃ k, fault = .convertedOutOfRange k) ∨ fault = .numberTooLarge ∨
      fault = .cancellingComponents ∨ fault = .alphaTooLarge ∧ a.toBinary64? = none := by
  rcases ofRgbAlpha_fault h with ⟨rfl, -⟩ | ⟨x, y, z, -, hnormalized | ⟨rfl, ha⟩⟩
  · exact .inr (.inr (.inl rfl))
  · rcases Rgb.normalized_fault hnormalized with ⟨k, v, rfl, -⟩ | rfl | ⟨k, rfl⟩
    · exact .inl ⟨k, v, rfl⟩
    · exact .inr (.inr (.inr (.inl rfl)))
    · exact .inr (.inl ⟨k, rfl⟩)
  · exact .inr (.inr (.inr (.inr ⟨rfl, ha⟩)))

theorem componentAboveOne_iff :
    ofComponents cs = .error (.componentAboveOne cs) ↔ ∃ n ∈ cs, n.isAtMostOne = false := by
  rcases ofComponents_cases cs with ⟨habove, hex⟩ | ⟨hone, hrest⟩
  · exact iff_of_true habove hex
  · have hno : ¬ ∃ n ∈ cs, n.isAtMostOne = false := by
      rintro ⟨n, hn, habove⟩
      rw [hone n hn] at habove
      cases habove
    refine iff_of_false (fun herror => ?_) hno
    rcases hrest with ⟨hcount, -⟩ | ⟨-, r, g, b, a, -, -, heq, -⟩
    · cases hcount.symm.trans herror
    · rcases ofRgbAlpha_fault_cases (heq.symm.trans herror) with ⟨k, x, h⟩ | ⟨k, h⟩ | h | h | ⟨h, -⟩ <;> cases h

theorem componentCount_iff : ofComponents cs = .error (.componentCount cs) ↔
    (∀ n ∈ cs, n.isAtMostOne = true) ∧ cs.length ≠ 3 ∧ cs.length ≠ 4 := by
  rcases ofComponents_cases cs with
    ⟨habove, n, hn, hnone⟩ | ⟨hone, ⟨hcount, hlength⟩ | ⟨hlength, r, g, b, a, -, -, heq, -⟩⟩
  · refine iff_of_false (fun herror => by cases habove.symm.trans herror) fun h => ?_
    rw [h.1 n hn] at hnone
    cases hnone
  · exact iff_of_true hcount ⟨hone, hlength⟩
  · refine iff_of_false (fun herror => ?_) (fun h => by omega)
    rcases ofRgbAlpha_fault_cases (heq.symm.trans herror) with ⟨k, x, h⟩ | ⟨k, h⟩ | h | h | ⟨h, -⟩ <;> cases h

/-- **Numbers out of range** among the first three. -/
theorem numberTooLarge_iff : ofRgbAlpha (r, g, b) a = .error .numberTooLarge ↔
    ∃ n ∈ [r, g, b], n.toBinary64? = none := by
  refine ⟨fun herror => ?_, ofRgbAlpha_of_none⟩
  rcases ofRgbAlpha_fault herror with ⟨-, h⟩ | ⟨x, y, z, -, hnormalized | ⟨h, -⟩⟩
  · exact h
  · rcases Rgb.normalized_fault hnormalized with ⟨k, v, h, -⟩ | h | ⟨k, h⟩ <;> cases h
  · cases h

/-- **A division by zero** among the first three. -/
theorem cancellingComponents_iff (hone : ∀ n ∈ [r, g, b], n.isAtMostOne = true) :
    ofRgbAlpha (r, g, b) a = .error .cancellingComponents ↔
      ∃ x y z, [r, g, b].map Number.toBinary64? = [some x, some y, some z] ∧ (Rgb.mk x y z).Cancels := by
  constructor
  · intro herror
    rcases ofRgbAlpha_fault herror with ⟨h, -⟩ | ⟨x, y, z, hxyz, hnormalized | ⟨h, -⟩⟩
    · cases h
    · exact ⟨x, y, z, hxyz, (Rgb.normalized_eq_cancelling_iff (channels_le_one hone hxyz)).mp hnormalized⟩
    · cases h
  · rintro ⟨x, y, z, hxyz, hcancels⟩
    have hnormalized := (Rgb.normalized_eq_cancelling_iff (channels_le_one hone hxyz)).mpr hcancels
    obtain ⟨hr, hg, hb⟩ : r.toBinary64? = some x ∧ g.toBinary64? = some y ∧ b.toBinary64? = some z := by
      simpa using hxyz
    simp only [ofRgbAlpha_of_some hr hg hb, hnormalized, bind, Except.bind]

/-- **What comes of a list of numbers**: a number above one is reported before a wrong length, and that before anything
else. A colour that is made has red, green and blue in range up to half a millionth and an alpha of at most one; its
alpha is below zero exactly if a fourth number is, by more than single precision rounds away. A list of three or four
numbers, none above one, is refused for components out of range, before or after the conversion; apart from that only
for a number beyond the doubles, or for components that cancel out. -/
theorem ofComponents_outcomes (cs : List Number) :
    (ofComponents cs = .error (.componentAboveOne cs) ↔ ∃ n ∈ cs, n.isAtMostOne = false) ∧
    (ofComponents cs = .error (.componentCount cs) ↔
      (∀ n ∈ cs, n.isAtMostOne = true) ∧ cs.length ≠ 3 ∧ cs.length ≠ 4) ∧
    (∀ k, ofComponents cs = .ok k → (cs.length = 3 ∨ cs.length = 4) ∧
      (∀ x ∈ [k.red, k.green, k.blue], ∃ v, x.rational? = some v ∧ -5 / 10 ^ 7 ≤ v ∧ v ≤ 1 + 5 / 10 ^ 7) ∧
      k.alpha ≤ 1 ∧ (0 ≤ k.alpha ↔ ∀ a w, cs[3]? = some a → a.toBinary64? = some w → -halfLeastSingle ≤ w)) ∧
    ((∀ n ∈ cs, n.isAtMostOne = true) → cs.length = 3 ∨ cs.length = 4 →
      (ofComponents cs = .error .numberTooLarge ↔ ∃ n ∈ cs.take 3, n.toBinary64? = none) ∧
      (ofComponents cs = .error .cancellingComponents ↔ ∃ x y z,
        (cs.take 3).map Number.toBinary64? = [some x, some y, some z] ∧ (Rgb.mk x y z).Cancels) ∧
      ∀ fault, ofComponents cs = .error fault → (∃ k x, fault = .componentOutOfRange k x) ∨
        (∃ k, fault = .convertedOutOfRange k) ∨ fault = .numberTooLarge ∨ fault = .cancellingComponents ∨
        fault = .alphaTooLarge ∧ ∃ a, cs[3]? = some a ∧ a.toBinary64? = none) := by
  refine ⟨componentAboveOne_iff, componentCount_iff, ?_, ?_⟩
  · intro k hk
    -- only the last of the three cases makes a colour
    rcases ofComponents_cases cs with ⟨habove, -⟩ | ⟨-, ⟨hcount, -⟩ | ⟨hlength, r, g, b, a, -, hone, heq, ha⟩⟩
    · cases habove.symm.trans hk
    · cases hcount.symm.trans hk
    · obtain ⟨hrange, halpha, w, hw, hsign⟩ := ofRgbAlpha_range hone (heq.symm.trans hk)
      refine ⟨hlength, hrange, halpha, hsign.trans ?_⟩
      rcases ha with ha | ⟨ha, rfl⟩
      · constructor
        · intro hle a' w' ha' hw'
          obtain rfl : a = a' := Option.some.inj (ha.symm.trans ha')
          rwa [← Option.some.inj (hw.symm.trans hw')]
        · exact fun h => h a w ha hw
      · -- alpha is one where it is left out
        have hle : ((Number.int 1).toBinary64?.any fun w => decide (-halfLeastSingle ≤ w)) = true := by decide +kernel
        rw [hw, Option.any_some, decide_eq_true_eq] at hle
        exact iff_of_true hle fun a' w' ha' _ => by cases ha.symm.trans ha'
  · intro hone hlength
    obtain ⟨r, g, b, a, htake, hone, heq, ha⟩ := exists_parts hone hlength
    rw [htake, heq]
    refine ⟨numberTooLarge_iff, cancellingComponents_iff fun n hn => hone n (by simp at hn ⊢; tauto), ?_⟩
    intro fault hfault
    rcases ofRgbAlpha_fault_cases hfault with h | h | h | h | ⟨h, hnone⟩
    · exact .inl h
    · exact .inr (.inl h)
    · exact .inr (.inr (.inl h))
    · exact .inr (.inr (.inr (.inl h)))
    · refine .inr (.inr (.inr (.inr ⟨h, a, ?_, hnone⟩)))
      rcases ha with ha | ⟨-, rfl⟩
      · exact ha
      · have hsome : (Number.int 1).toBinary64?.isSome = true := by decide +kernel
        simp [hnone] at hsome

/-- A colour with an alpha that is kept, and two numbers of which one is above one. -/
theorem half_transparent_color :
    (∃ k, ofComponents [.real (ofFraction 1 4), .real (ofFraction 1 2), .int 1, .real (ofFraction 1 2)] = .ok k ∧
      (∀ x ∈ [k.red, k.green, k.blue], ∃ v, x.rational? = some v ∧ -5 / 10 ^ 7 ≤ v ∧ v ≤ 1 + 5 / 10 ^ 7) ∧
      k.alpha ≤ 1 ∧ 0 ≤ k.alpha) ∧
    ofComponents [.int 2, .int 0] = .error (.componentAboveOne [.int 2, .int 0]) := by
  obtain ⟨k, hk⟩ := exists_of_isOk
    (x := ofComponents [.real (ofFraction 1 4), .real (ofFraction 1 2), .int 1, .real (ofFraction 1 2)])
    (by decide +kernel)
  obtain ⟨-, hrange, halpha, hsign⟩ := (ofComponents_outcomes _).2.2.1 k hk
  refine ⟨⟨k, hk, hrange, halpha, hsign.mpr ?_⟩, (ofComponents_outcomes _).1.mpr ⟨.int 2, by simp, by decide +kernel⟩⟩
  intro a w ha hw
  obtain rfl : Number.real (ofFraction 1 2) = a := Option.some.inj ha
  obtain rfl : ofFraction 1 2 = w := Option.some.inj hw
  decide +kernel

/-- An alpha below zero is kept, and opposite components divide by zero. -/
theorem negative_alpha_and_opposite_components :
    (∃ k, ofComponents [.int 0, .int 0, .int 0, .int (-1)] = .ok k ∧ ¬ 0 ≤ k.alpha) ∧
    ofComponents [.real (ofFraction 4 10000000), .real (-ofFraction 4 10000000), .int 0] =
      .error .cancellingComponents := by
  refine ⟨?_, by decide +kernel⟩
  obtain ⟨k, hk⟩ := exists_of_isOk (x := ofComponents [.int 0, .int 0, .int 0, .int (-1)]) (by decide +kernel)
  have hnegative :
      ((ofComponents [.int 0, .int 0, .int 0, .int (-1)]).toOption.any fun k => !decide (0 ≤ k.alpha)) = true := by
    decide +kernel
  rw [hk] at hnegative
  have hnegative : (!decide (0 ≤ k.alpha)) = true := hnegative
  exact ⟨k, hk, by simpa using hnegative⟩

end ColorSpec

end PlaneSketch
