import PlaneSketch.Text.Split

/-!
# Pieces between separators

`Pieces separator s ps` says what it means for a text to consist of pieces: there is at least one, none holds
the separator, and put together again they are the text.

* `split_eq_iff`: splitting finds the pieces of a text, and no others.
* `split_append`: the pieces of two texts with a separator between them are those of the one and of the other.
* `length_split`: there is one piece more than there are separators.
-/

namespace PlaneSketch.Text

variable {separator : Char}

/-- The pieces `ps` make up the text `s`. -/
structure Pieces (separator : Char) (s : List Char) (ps : List (List Char)) : Prop where
  ne_nil : ps ≠ []
  free : ∀ p ∈ ps, separator ∉ p
  joined : join separator ps = s

theorem split_cons_separator (s : List Char) :
    split separator (separator :: s) = [] :: split separator s := by
  simp [split]

theorem split_cons_of_ne {c : Char} (hc : c ≠ separator) {s p : List Char} {ps : List (List Char)}
    (h : split separator s = p :: ps) : split separator (c :: s) = (c :: p) :: ps := by
  simp [split, hc, h]

theorem exists_split_eq_cons (separator : Char) (s : List Char) :
    ∃ p ps, split separator s = p :: ps :=
  List.exists_cons_of_ne_nil (split_ne_nil separator s)

theorem not_mem_of_mem_split {s p : List Char} (h : p ∈ split separator s) : separator ∉ p := by
  induction s generalizing p with
  | nil =>
    simp only [split, List.mem_singleton] at h
    subst h
    simp
  | cons c s ih =>
    by_cases hc : c = separator
    · subst hc
      rw [split_cons_separator] at h
      rcases List.mem_cons.mp h with rfl | h
      · simp
      · exact ih h
    · obtain ⟨q, qs, hq⟩ := exists_split_eq_cons separator s
      rw [split_cons_of_ne hc hq] at h
      rcases List.mem_cons.mp h with rfl | h
      · have := ih (p := q) (by simp [hq])
        simp [Ne.symm hc, this]
      · exact ih (by simp [hq, h])

/-- A text without the separator is a single piece. -/
theorem split_of_not_mem {s : List Char} (h : separator ∉ s) : split separator s = [s] := by
  induction s with
  | nil => rfl
  | cons c s ih =>
    rw [List.mem_cons, not_or] at h
    exact split_cons_of_ne (Ne.symm h.1) (ih h.2)

/-- A piece in front is split off as it stands. -/
theorem split_append_separator {p : List Char} (h : separator ∉ p) (s : List Char) :
    split separator (p ++ separator :: s) = p :: split separator s := by
  induction p with
  | nil => exact split_cons_separator s
  | cons c p ih =>
    rw [List.mem_cons, not_or] at h
    exact split_cons_of_ne (Ne.symm h.1) (ih h.2)

theorem split_join {ps : List (List Char)} (hne : ps ≠ []) (h : ∀ p ∈ ps, separator ∉ p) :
    split separator (join separator ps) = ps := by
  induction ps with
  | nil => exact absurd rfl hne
  | cons p ps ih =>
    cases ps with
    | nil => exact split_of_not_mem (h p (by simp))
    | cons q qs =>
      have hp : separator ∉ p := h p (by simp)
      have hrest : ∀ r ∈ q :: qs, separator ∉ r := fun r hr => h r (by simp [hr])
      show split separator (p ++ separator :: join separator (q :: qs)) = _
      rw [split_append_separator hp, ih (by simp) hrest]

/-- What holds of the separator and of the characters of all pieces holds of those of the text. -/
theorem forall_mem_join {P : Char → Prop} {ps : List (List Char)} (hseparator : P separator)
    (h : ∀ p ∈ ps, ∀ c ∈ p, P c) : ∀ c ∈ join separator ps, P c := by
  induction ps with
  | nil => simp [join]
  | cons p ps ih =>
    obtain ⟨hp, hps⟩ := List.forall_mem_cons.mp h
    cases ps with
    | nil => exact hp
    | cons q qs =>
      show ∀ c ∈ p ++ separator :: join separator (q :: qs), P c
      rw [List.forall_mem_append, List.forall_mem_cons]
      exact ⟨hp, hseparator, ih hps⟩

/-- **Splitting** finds the pieces of a text, and no others. -/
theorem split_eq_iff {s : List Char} {ps : List (List Char)} :
    split separator s = ps ↔ Pieces separator s ps := by
  constructor
  · rintro rfl
    exact ⟨split_ne_nil separator s, fun _ hp => not_mem_of_mem_split hp, join_split separator s⟩
  · rintro ⟨hne, hfree, rfl⟩
    exact split_join hne hfree

/-- The pieces of two texts with a separator between them are those of the one and of the other. -/
theorem split_append (s t : List Char) :
    split separator (s ++ separator :: t) = split separator s ++ split separator t := by
  induction s with
  | nil => exact split_cons_separator t
  | cons c s ih =>
    by_cases hc : c = separator
    · subst hc
      rw [List.cons_append, split_cons_separator, split_cons_separator, ih, List.cons_append]
    · obtain ⟨p, ps, hs⟩ := exists_split_eq_cons separator s
      rw [hs, List.cons_append] at ih
      rw [List.cons_append, split_cons_of_ne hc ih, split_cons_of_ne hc hs, List.cons_append]

theorem length_split (separator : Char) (s : List Char) :
    (split separator s).length = s.count separator + 1 := by
  induction s with
  | nil => rfl
  | cons c s ih =>
    by_cases hc : c = separator
    · subst hc
      rw [split_cons_separator, List.length_cons, ih, List.count_cons_self]
    · obtain ⟨q, qs, hq⟩ := exists_split_eq_cons separator s
      rw [hq] at ih
      rw [split_cons_of_ne hc hq, List.count_cons_of_ne hc]
      exact ih

end PlaneSketch.Text
