import PlaneSketch.Decimal.Layout
import PlaneSketch.Proofs.Decimal.Shortest
import PlaneSketch.Proofs.Numeral.Exact

/-!
# Written numbers are numerals

A decimal is laid out with its point among its digits, or with zeros between the digits and the point, or as a
significand and a power of ten. In each layout its text is an unsigned numeral of just the value of the decimal. Since
the shortest decimal of a double reads back, the text of a finite double is a literal of that double.

* `text_denotes`: the text of a decimal denotes the decimal.
* `Numeral.spells_text`: the text of a finite double denotes its shortest decimal.
* `Numeral.literal_text`: the text of a finite double is a literal of it, the sign of a zero included.
-/

namespace PlaneSketch

namespace Text

/-! ### Rows of digits and their values -/

theorem digitValue?_digitChar {k : Nat} (h : k < 10) : digitValue? k.digitChar = some k := by
  revert k
  decide

theorem DigitsOf.append {s t : List Char} {ds es : List Nat} (hs : DigitsOf s ds) (ht : DigitsOf t es) :
    DigitsOf (s ++ t) (ds ++ es) := by
  unfold DigitsOf at *
  rw [List.map_append, List.map_append, hs, ht]

theorem DigitsOf.take {s : List Char} {ds : List Nat} (h : DigitsOf s ds) (k : Nat) :
    DigitsOf (s.take k) (ds.take k) := by
  unfold DigitsOf at *
  rw [List.map_take, List.map_take, h]

theorem DigitsOf.drop {s : List Char} {ds : List Nat} (h : DigitsOf s ds) (k : Nat) :
    DigitsOf (s.drop k) (ds.drop k) := by
  unfold DigitsOf at *
  rw [List.map_drop, List.map_drop, h]

theorem DigitsOf.length_eq {s : List Char} {ds : List Nat} (h : DigitsOf s ds) : s.length = ds.length := by
  simpa using congrArg List.length h

theorem digitsOf_zeros (k : Nat) : DigitsOf (List.replicate k '0') (List.replicate k 0) := by
  unfold DigitsOf
  rw [List.map_replicate, List.map_replicate]
  rfl

theorem digitsValue_zeros (k : Nat) : digitsValue (List.replicate k 0) = 0 := by
  induction k with
  | zero => rfl
  | succ k ih =>
    rw [List.replicate_succ', digitsValue_append, ih, Nat.zero_mul]
    rfl

theorem digitsValue_zeros_append (k : Nat) (ds : List Nat) :
    digitsValue (List.replicate k 0 ++ ds) = digitsValue ds := by
  rw [digitsValue_append, digitsValue_zeros, Nat.zero_mul, Nat.zero_add]

theorem digitsValue_append_zeros (ds : List Nat) (k : Nat) :
    digitsValue (ds ++ List.replicate k 0) = digitsValue ds * 10 ^ k := by
  rw [digitsValue_append, digitsValue_zeros, List.length_replicate, Nat.add_zero]

/-- The digits of a number are a row of digits with the number as its value. -/
theorem digitsOf_toDigits (n : Nat) : ∃ ds, DigitsOf (Nat.toDigits 10 n) ds ∧ digitsValue ds = n ∧ ds ≠ [] := by
  induction n using Nat.strongRecOn with
  | ind n ih =>
    have hlast : ∀ k, k < 10 → DigitsOf [k.digitChar] [k] := fun k hk =>
      digitsOf_cons_iff.mpr ⟨digitValue?_digitChar hk, digitsOf_nil⟩
    rcases Nat.lt_or_ge n 10 with hlt | hge
    · rw [Nat.toDigits_of_lt_base hlt]
      exact ⟨[n], hlast n hlt, by simp [digitsValue], by simp⟩
    · obtain ⟨ds, hds, hvalue, -⟩ := ih (n / 10) (by omega)
      rw [Nat.toDigits_of_base_le (by decide) hge]
      refine ⟨ds ++ [n % 10], hds.append (hlast _ (by omega)), ?_, by simp⟩
      rw [digitsValue_append, hvalue]
      simp only [digitsValue, List.length_singleton, List.foldl_cons, List.foldl_nil]
      omega

end Text

namespace Decimal

open Text Numeral

/-- The text is an unsigned numeral whose digits and exponent have the value of the decimal. -/
inductive Denotes : List Char → Decimal → Prop
  | mk {b c whole fraction exponent d} : MantissaText b whole fraction → ExponentText c exponent →
      rational ⟨digitsValue (whole ++ fraction), exponent - fraction.length⟩ = d.rational → Denotes (b ++ c) d

/-! ### The layouts -/

theorem exponentText_spec (e : Int) : ExponentText ('e' :: exponentText e) e := by
  obtain ⟨ds, hds, hvalue, hne⟩ := digitsOf_toDigits e.natAbs
  obtain ⟨t, es, ht, hes, htvalue, htext⟩ : ∃ t es, DigitsOf t es ∧ es ≠ [] ∧ digitsValue es = e.natAbs ∧
      exponentText e = (if e < 0 then '-' else '+') :: t := by
    unfold exponentText
    by_cases hlen : (Nat.toDigits 10 e.natAbs).length < 2
    · refine ⟨_, _, (digitsOf_zeros 1).append hds, by simp, ?_, by simp [hlen]⟩
      rw [digitsValue_zeros_append, hvalue]
    · exact ⟨_, _, hds, hne, hvalue, by simp [hlen]⟩
  have hsign : SignText [if e < 0 then '-' else '+'] (decide (e < 0)) := by
    by_cases hneg : e < 0
    · simpa [hneg] using SignText.minus
    · simpa [hneg] using SignText.plus
  have hgiven := ExponentText.given (.inl rfl) hsign ht hes
  have he : (if decide (e < 0) = true then -(digitsValue es : Int) else digitsValue es) = e := by
    simp only [decide_eq_true_eq]
    split <;> omega
  rw [he] at hgiven
  rw [htext]
  exact hgiven

variable {cs : List Char} {ds : List Nat}

/-- Digits behind the point, with zeros between. -/
theorem positional_denotes_of_nonpos (h : DigitsOf cs ds) {point : Int} (hpoint : point ≤ 0) :
    Denotes (positional cs point) ⟨digitsValue ds, point - ds.length⟩ := by
  have hwhole : DigitsOf ['0'] [0] := digitsOf_zeros 1
  have hfraction := (digitsOf_zeros (-point).toNat).append h
  have key : Denotes (('0' :: '.' :: (List.replicate (-point).toNat '0' ++ cs)) ++ [])
      ⟨digitsValue ds, point - ds.length⟩ := by
    refine .mk (.point hwhole (by simp) hfraction) .absent ?_
    have hvalue : digitsValue ([0] ++ (List.replicate (-point).toNat 0 ++ ds)) = digitsValue ds := by
      rw [digitsValue_append, digitsValue_zeros_append]
      simp [digitsValue]
    have hexponent : (0 : Int) - (List.replicate (-point).toNat 0 ++ ds).length = point - ds.length := by
      simp only [List.length_append, List.length_replicate]
      omega
    rw [hvalue, hexponent]
  rw [List.append_nil] at key
  rw [positional, if_pos hpoint]
  exact key

/-- The point among the digits. -/
theorem positional_denotes_of_lt (h : DigitsOf cs ds) {k : Nat} (hpos : 0 < k) (hk : k < ds.length) :
    Denotes (positional cs k) ⟨digitsValue ds, (k : Int) - ds.length⟩ := by
  have hne : ds.take k ≠ [] := by
    intro hnil
    have := congrArg List.length hnil
    simp only [List.length_take, List.length_nil] at this
    omega
  have htext : positional cs k = (cs.take k ++ '.' :: cs.drop k) ++ [] := by
    have hlen := h.length_eq
    have hdrop : cs.drop k ≠ [] := by simpa using by omega
    have hgap : k - cs.length = 0 := by omega
    simp [positional, Nat.ne_of_gt hpos, hdrop, hgap]
  rw [htext]
  refine .mk (.point (h.take k) hne (h.drop k)) .absent ?_
  have hexponent : (0 : Int) - (ds.drop k).length = k - ds.length := by
    rw [List.length_drop]
    omega
  rw [hexponent, List.take_append_drop]

/-- Zeros between the digits and the point, and a single zero behind it. -/
theorem positional_denotes_of_le (h : DigitsOf cs ds) (hne : ds ≠ []) {k : Nat} (hk : ds.length ≤ k) :
    Denotes (positional cs k) ⟨digitsValue ds, (k : Int) - ds.length⟩ := by
  have hlen := h.length_eq
  have hpos : k ≠ 0 := by
    have := List.length_pos_iff.mpr hne
    omega
  have hwhole := h.append (digitsOf_zeros (k - ds.length))
  have htext : positional cs k = ((cs ++ List.replicate (k - ds.length) '0') ++ '.' :: ['0']) ++ [] := by
    have htake : cs.take k = cs := List.take_of_length_le (by omega)
    have hdrop : cs.drop k = [] := List.drop_eq_nil_of_le (by omega)
    simp [positional, hpos, htake, hdrop, hlen]
  rw [htext]
  refine .mk (.point hwhole (by simp [hne]) (digitsOf_zeros 1)) .absent ?_
  have hvalue : digitsValue ((ds ++ List.replicate (k - ds.length) 0) ++ [0]) =
      digitsValue ds * 10 ^ (k - ds.length + 1) := by
    rw [List.append_assoc, ← List.replicate_succ', digitsValue_append_zeros]
  have hexponent : (0 : Int) - ([0] : List Nat).length + (k - ds.length + 1 : Nat) = k - ds.length := by
    simp only [List.length_singleton]
    omega
  rw [List.replicate_one, hvalue, rational_mul_pow, hexponent]

theorem positional_denotes (h : DigitsOf cs ds) (hne : ds ≠ []) (point : Int) :
    Denotes (positional cs point) ⟨digitsValue ds, point - ds.length⟩ := by
  rcases lt_or_ge 0 point with hpos | hnonpos
  · obtain ⟨k, rfl⟩ := Int.eq_ofNat_of_zero_le (Int.le_of_lt hpos)
    rcases Nat.lt_or_ge k ds.length with hlt | hge
    · exact positional_denotes_of_lt h (by omega) hlt
    · exact positional_denotes_of_le h hne hge
  · exact positional_denotes_of_nonpos h hnonpos

theorem scientific_denotes (h : DigitsOf cs ds) (hne : ds ≠ []) (first : Int) :
    Denotes (scientific cs first) ⟨digitsValue ds, first + 1 - ds.length⟩ := by
  obtain ⟨d, es, rfl⟩ := List.exists_cons_of_ne_nil hne
  obtain ⟨c, t, rfl⟩ := List.exists_cons_of_ne_nil fun hs => hne (h.eq_nil_iff.mp hs)
  obtain ⟨hc, ht⟩ := digitsOf_cons_iff.mp h
  have hfirst : DigitsOf [c] [d] := digitsOf_cons_iff.mpr ⟨hc, digitsOf_nil⟩
  have hvalue : rational ⟨digitsValue ([d] ++ es), first - es.length⟩ =
      rational ⟨digitsValue (d :: es), first + 1 - (d :: es).length⟩ := by
    have hexponent : first - (es.length : Int) = first + 1 - (d :: es).length := by
      rw [List.length_cons]
      omega
    rw [hexponent, List.singleton_append]
  cases t with
  | nil =>
    obtain rfl : es = [] := ht.eq_nil_iff.mp rfl
    exact .mk (.whole hfirst (by simp)) (exponentText_spec first) hvalue
  | cons c' t =>
    have htext : scientific (c :: c' :: t) first = ([c] ++ '.' :: c' :: t) ++ 'e' :: exponentText first := by
      simp [scientific]
    rw [htext]
    exact .mk (.point hfirst (by simp) ht) (exponentText_spec first) hvalue

/-- **The text of a decimal** denotes the decimal. -/
theorem text_denotes (range : PositionalRange) (d : Decimal) : Denotes (d.text range) d := by
  obtain ⟨ds, hds, hvalue, hne⟩ := digitsOf_toDigits d.coefficient
  have hlen : d.digits.length = ds.length := hds.length_eq
  have hd : ∀ point, point = d.exponent + ds.length → (⟨digitsValue ds, point - ds.length⟩ : Decimal) = d := by
    rintro point rfl
    rw [hvalue, Int.add_sub_cancel]
  simp only [text, hlen]
  split
  · have key := positional_denotes hds hne (d.exponent + ds.length - 1 + 1)
    rwa [hd _ (by omega)] at key
  · have key := scientific_denotes hds hne (d.exponent + ds.length - 1)
    rwa [hd _ (by omega)] at key

end Decimal

namespace Numeral

open Decimal

/-- The text of a finite double is a numeral with its sign and the value of its shortest decimal. -/
theorem spells_text (s : Bool) (n : Nat) (h : FitsDouble n) :
    ∃ m : Numeral, Spells (Binary64.finite s n h).text.toList m ∧ m.negative = s ∧
      m.toDecimal.rational = (shortest (.finite s n h) n).rational := by
  generalize hd : shortest (.finite s n h) n = d
  obtain ⟨a, ha, htext⟩ : ∃ a, SignText a s ∧ (Binary64.finite s n h).text.toList = a ++ d.text .standard := by
    cases s with
    | false => exact ⟨[], .absent, by simp [Binary64.text, hd]⟩
    | true => exact ⟨['-'], .minus, by simp [Binary64.text, hd]⟩
  have hdenotes : Denotes (d.text .standard) d := text_denotes .standard d
  rw [htext]
  generalize d.text .standard = body at hdenotes
  obtain ⟨hmantissa, hexponent, hvalue⟩ := hdenotes
  exact ⟨_, .mk ha hmantissa hexponent, rfl, hvalue⟩

/-- **The text of a finite double** is a literal of that double. -/
theorem literal_text {x : Binary64} (hx : x.isFinite = true) : Literal x.text.toList x := by
  cases x with
  | nan => simp [Binary64.isFinite] at hx
  | infinite s => simp [Binary64.isFinite] at hx
  | finite s n h =>
    have hback : (shortest (.finite s n h) n).toBinary64 s = .finite s n h := shortest_readsAs
    obtain ⟨m, hm, hsign, hvalue⟩ := spells_text s n h
    refine literal_iff.mpr ⟨m, hm, ?_, hx⟩
    rw [Numeral.value, hsign, toBinary64_congr hvalue, hback]

end Numeral

end PlaneSketch
