import Mathlib.Tactic.ByContra
import Mathlib.Tactic.SplitIfs
import PlaneSketch.Picture
import PlaneSketch.Proofs.Text.LowerCase
import PlaneSketch.Proofs.Text.Words

/-!
# Reading format names

`PiecesOf s ps` takes a text apart into pieces and separators, where a separator takes with it all the blanks behind it,
but none in front. Every text falls apart in exactly one way, and bringing it to lower case does the same to its pieces.

* `pieces_eq_iff`: `pieces` finds the pieces of a text, and no others.
* `PiecesOf.lower`: the pieces of a text in lower case.
* `read_of_known`, `read_of_unknown`: what is read, and what is reported of names that are not known.
-/

namespace PlaneSketch.Format

open Text

/-- The text holds no separator. -/
def IsPiece (s : List Char) : Prop := ∀ c ∈ s, isSeparator c = false

/-- If anything, a character other than a blank stands at the front. -/
def WordHead (s : List Char) : Prop := ∀ c ∈ s.head?, isBlank c = false

/-- The text `s` consists of the pieces `ps`, with a separator and then all the blanks behind it between them. -/
inductive PiecesOf : List Char → List (List Char) → Prop
  | last {p} : IsPiece p → PiecesOf p [p]
  | cons {p separator gap rest ps} : IsPiece p → isSeparator separator = true → IsGap gap → WordHead rest →
      PiecesOf rest ps → PiecesOf (p ++ separator :: (gap ++ rest)) (p :: ps)

/-! ### Finding the pieces -/

/-- The separators as a set of characters. -/
def separators : CharSet where
  edges := [0x2C, 0x2D, 0x3B, 0x3C, 0x7C, 0x7D]

theorem isSeparator_eq (c : Char) : isSeparator c = separators.contains c := by
  have hchar : ∀ {d : Char}, c = d ↔ c.toNat = d.toNat := Char.toNat_inj.symm
  have hsemicolon : (';' : Char).toNat = 0x3B := rfl
  have hcomma : (',' : Char).toNat = 0x2C := rfl
  have hbar : ('|' : Char).toNat = 0x7C := rfl
  have hnone : CharSet.holds [] c.toNat = false := rfl
  rw [Bool.eq_iff_iff]
  simp only [isSeparator, hchar, hsemicolon, hcomma, hbar, Bool.or_eq_true, decide_eq_true_eq, CharSet.contains,
    separators, CharSet.holds_cons, hnone, Bool.and_eq_true, Bool.not_eq_true', Bool.and_eq_false_iff,
    decide_eq_false_iff_not, Bool.not_eq_false', Bool.false_eq_true, or_false]
  omega

theorem isBlank_of_isSeparator {c : Char} (hc : isSeparator c = true) : isBlank c = false := by
  simp only [isSeparator, Bool.or_eq_true, decide_eq_true_eq] at hc
  rcases hc with (rfl | rfl) | rfl <;> decide

theorem pieces_separator {c : Char} (hc : isSeparator c = true) (skipping : Bool) (s : List Char) :
    pieces skipping (c :: s) = [] :: pieces true s := by
  rw [pieces, if_pos hc]

theorem pieces_true_eq (s : List Char) : pieces true s = pieces false (s.dropWhile isBlank) := by
  induction s with
  | nil => rfl
  | cons c s ih =>
    cases hc : isSeparator c with
    | true =>
      rw [List.dropWhile_cons_of_neg (by simp [isBlank_of_isSeparator hc]), pieces_separator hc, pieces_separator hc]
    | false =>
      cases hb : isBlank c with
      | true => rw [List.dropWhile_cons_of_pos hb, ← ih, pieces, if_neg (by simp [hc]), if_pos (by simp [hb])]
      | false =>
        rw [List.dropWhile_cons_of_neg (by simp [hb]), pieces, pieces, if_neg (by simp [hc]), if_neg (by simp [hb]),
          if_neg (by simp [hc]), if_neg (by simp)]

theorem pieces_of_isPiece {p : List Char} (hp : IsPiece p) : pieces false p = [p] := by
  induction p with
  | nil => rfl
  | cons c p ih =>
    obtain ⟨hc, hp⟩ := List.forall_mem_cons.mp hp
    rw [pieces, if_neg (by simp [hc]), if_neg (by simp), ih hp, prepend]

theorem pieces_append_separator {p : List Char} (hp : IsPiece p) {c : Char} (hc : isSeparator c = true)
    (s : List Char) : pieces false (p ++ c :: s) = p :: pieces true s := by
  induction p with
  | nil => exact pieces_separator hc false s
  | cons d p ih =>
    obtain ⟨hd, hp⟩ := List.forall_mem_cons.mp hp
    rw [List.cons_append, pieces, if_neg (by simp [hd]), if_neg (by simp), ih hp, prepend]

theorem dropWhile_gap_append {gap rest : List Char} (hgap : IsGap gap) (hrest : WordHead rest) :
    (gap ++ rest).dropWhile isBlank = rest := by
  induction gap with
  | nil =>
    cases rest with
    | nil => rfl
    | cons c rest => exact List.dropWhile_cons_of_neg (by simp [hrest c (by simp)])
  | cons c gap ih =>
    obtain ⟨hc, hgap⟩ := List.forall_mem_cons.mp hgap
    rw [List.cons_append, List.dropWhile_cons_of_pos hc, ih hgap]

theorem PiecesOf.pieces_eq {s : List Char} {ps : List (List Char)} (h : PiecesOf s ps) : pieces false s = ps := by
  induction h with
  | last hp => exact pieces_of_isPiece hp
  | cons hp hseparator hgap hrest _ ih =>
    rw [pieces_append_separator hp hseparator, pieces_true_eq, dropWhile_gap_append hgap hrest, ih]

theorem wordHead_dropWhile (s : List Char) : WordHead (s.dropWhile isBlank) := by
  intro c hc
  have hnot := List.head?_dropWhile_not isBlank s
  rw [Option.mem_def.mp hc] at hnot
  simpa using hnot

/-- One more character in front belongs to the first piece, unless it is a separator. -/
theorem exists_piecesOf (s : List Char) : ∃ ps, PiecesOf s ps := by
  -- the blanks behind a separator are skipped at once, which is why the induction is on the length
  induction hn : s.length using Nat.strongRecOn generalizing s with
  | _ n ih =>
    cases s with
    | nil => exact ⟨[[]], .last (by simp [IsPiece])⟩
    | cons c s =>
      rw [List.length_cons] at hn
      cases hc : isSeparator c with
      | true =>
        obtain ⟨ps, hps⟩ := ih (s.dropWhile isBlank).length
          (by have := (List.dropWhile_suffix isBlank (l := s)).length_le; omega) _ rfl
        have hgap : IsGap (s.takeWhile isBlank) := fun d hd => List.all_eq_true.mp List.all_takeWhile d hd
        have hcons := PiecesOf.cons (p := []) (by simp [IsPiece]) hc hgap (wordHead_dropWhile s) hps
        rw [List.nil_append, List.takeWhile_append_dropWhile] at hcons
        exact ⟨_, hcons⟩
      | false =>
        obtain ⟨ps, hps⟩ := ih s.length (by omega) s rfl
        cases hps with
        | last hp => exact ⟨_, .last (List.forall_mem_cons.mpr ⟨hc, hp⟩)⟩
        | cons hp hseparator hgap hrest htail =>
          exact ⟨_, .cons (p := c :: _) (List.forall_mem_cons.mpr ⟨hc, hp⟩) hseparator hgap hrest htail⟩

/-- **The pieces of a text** are what stands between separators and the blanks behind them. -/
theorem pieces_eq_iff {s : List Char} {ps : List (List Char)} : pieces false s = ps ↔ PiecesOf s ps := by
  constructor
  · rintro rfl
    obtain ⟨ps, h⟩ := exists_piecesOf s
    rwa [h.pieces_eq]
  · exact PiecesOf.pieces_eq

/-! ### Lower case -/

theorem isCaseless_separators : IsCaseless separators :=
  ⟨by decide, by decide +kernel, by decide +kernel, by decide⟩

theorem IsPiece.lower {p : List Char} (hp : IsPiece p) : IsPiece (lower p) := by
  intro c hc
  by_contra hseparator
  rw [Bool.not_eq_false, isSeparator_eq] at hseparator
  have hmem := hp c (isCaseless_separators.mem_of_mem_lower hseparator hc)
  rw [isSeparator_eq, hseparator] at hmem
  cases hmem

theorem lower_gap_append {gap : List Char} (hgap : IsGap gap) (s : List Char) : lower (gap ++ s) = gap ++ lower s := by
  induction gap with
  | nil => rfl
  | cons c gap ih =>
    obtain ⟨hc, hgap⟩ := List.forall_mem_cons.mp hgap
    exact ((isCaseless_blanks.uncased hc).lower_append [] (gap ++ s)).trans (congrArg (c :: ·) (ih hgap))

theorem WordHead.lower {s : List Char} (hs : WordHead s) : WordHead (lower s) := by
  cases s with
  | nil => exact hs
  | cons d s =>
    intro c hc
    by_contra hblank
    rw [Bool.not_eq_false] at hblank
    have hne : lowerBetween [] d s ≠ [] := by
      unfold lowerBetween
      split_ifs <;> simp
    obtain ⟨k, ks, hk⟩ := List.exists_cons_of_ne_nil hne
    have hhead : (lowerBetween [] d s ++ lower.go [d] s).head? = some c := hc
    rw [hk, List.cons_append, List.head?_cons, Option.some.injEq] at hhead
    have hd : isBlank d = false := hs d (by simp)
    have hmem : c ∈ lowerBetween [] d s := by simp [hk, hhead]
    rw [← isCaseless_blanks.eq_of_mem_lowerBetween hblank hmem, hblank] at hd
    cases hd

/-- **In lower case**, a text consists of its pieces in lower case. -/
theorem PiecesOf.lower {s : List Char} {ps : List (List Char)} (h : PiecesOf s ps) :
    PiecesOf (lower s) (ps.map Text.lower) := by
  induction h with
  | last hp => exact .last hp.lower
  | @cons p separator gap rest ps hp hseparator hgap hrest _ ih =>
    have huncased := isCaseless_separators.uncased (isSeparator_eq separator ▸ hseparator)
    rw [huncased.lower_append, lower_gap_append hgap]
    exact .cons hp.lower hseparator hgap hrest.lower ih

/-! ### Names -/

/-- The text `s` consists of pieces that are `ns` in lower case. -/
def NamesOf (s : String) (ns : List String) : Prop :=
  ∃ ps, PiecesOf s.toList ps ∧ ns = ps.map fun piece => String.ofList (Text.lower piece)

theorem namesIn_eq_iff {s : String} {ns : List String} : namesIn s = ns ↔ NamesOf s ns := by
  simp only [namesIn, NamesOf, ← pieces_eq_iff, exists_eq_left']
  exact eq_comm

/-- Letter case makes no difference to the names in a text. -/
theorem namesIn_eq_of_lower_eq {s s' : String} (h : Text.lower s.toList = Text.lower s'.toList) :
    namesIn s = namesIn s' := by
  have hlower : ∀ t : String, namesIn t = (pieces false (Text.lower t.toList)).map String.ofList := by
    intro t
    have hpieces := (pieces_eq_iff.mp (rfl : pieces false t.toList = _)).lower
    rw [pieces_eq_iff.mpr hpieces, List.map_map]
    rfl
  rw [hlower, hlower, h]

/-- The names of the three formats. -/
def known : List String := ["pil", "skia", "numpy"]

theorem lookup_isNone_iff {n : String} : (names.lookup n).isNone = true ↔ n ∉ known := by
  have hsome : (names.lookup n).isSome = true ↔ n ∈ known := by
    simp [List.lookup_isSome_iff, names, known]
  rw [← hsome, Bool.not_eq_true, Option.isSome_eq_false_iff]

theorem lookup_eq_some_iff {n : String} {f : Format} : names.lookup n = some f ↔ (n, f) ∈ names := by
  have hcons : ∀ {m : String} {g : Format} {table}, (n ≠ m → (table.lookup n = some f ↔ (n, f) ∈ table)) →
      (m, f) ∉ table → (((m, g) :: table).lookup n = some f ↔ (n, f) ∈ (m, g) :: table) := by
    intro m g table htable hfresh
    by_cases hn : n = m
    · subst hn
      simp [hfresh, eq_comm]
    · simp [List.lookup_cons, beq_eq_false_iff_ne.mpr hn, hn, htable hn]
  refine hcons (fun _ => hcons (fun _ => hcons (fun _ => by simp) ?_) ?_) ?_ <;> simp

/-! ### Reading -/

theorem nodup_eraseDups (l : List String) : l.eraseDups.Nodup := by
  induction hn : l.length using Nat.strongRecOn generalizing l with
  | _ n ih =>
    cases l with
    | nil => exact List.nodup_nil
    | cons a l =>
      rw [List.eraseDups_cons, List.nodup_cons]
      have hlt : (l.filter fun b => !b == a).length < n := by
        have := List.length_filter_le (fun b => !b == a) l
        rw [List.length_cons] at hn
        omega
      exact ⟨by simp, ih _ hlt _ rfl⟩

/-- The names of a list in order, each once. -/
theorem pairwise_lt_sort (l : List String) :
    (l.eraseDups.mergeSort fun a b => decide (a ≤ b)).Pairwise (· < ·) := by
  have hsorted : (l.eraseDups.mergeSort fun a b => decide (a ≤ b)).Pairwise fun a b => decide (a ≤ b) = true :=
    List.pairwise_mergeSort (by simpa using fun a b c => String.le_trans) (by simpa using String.le_total) _
  have hnodup := (List.mergeSort_perm l.eraseDups fun a b => decide (a ≤ b)).nodup_iff.mpr (nodup_eraseDups l)
  refine hsorted.imp₂ (fun a b hle hne => ?_) hnodup
  exact String.not_le.mp fun hge => hne (String.le_antisymm (of_decide_eq_true hle) hge)

variable {s : String} {ns : List String}

/-- Names that are not known are reported in order, each once. -/
theorem read_of_unknown (hns : NamesOf s ns) (hunknown : ∃ n ∈ ns, n ∉ known) :
    ∃ unknown, read s = .error (.unknownFormats unknown) ∧ unknown.Pairwise (· < ·) ∧
      ∀ n, n ∈ unknown ↔ n ∈ ns ∧ n ∉ known := by
  have hnames := namesIn_eq_iff.mpr hns
  have hsome : ((namesIn s).filter fun n => (names.lookup n).isNone).isEmpty = false := by
    obtain ⟨n, hn, hnot⟩ := hunknown
    simp only [List.isEmpty_eq_false_iff, ne_eq, List.filter_eq_nil_iff, not_forall]
    exact ⟨n, hnames ▸ hn, not_not.mpr (lookup_isNone_iff.mpr hnot)⟩
  refine ⟨_, ?_, pairwise_lt_sort ((namesIn s).filter fun n => (names.lookup n).isNone), ?_⟩
  · simp only [read, hsome, Bool.false_eq_true, if_false]
  · intro n
    rw [List.mem_mergeSort, List.mem_eraseDups, List.mem_filter, hnames, lookup_isNone_iff]

/-- Where all names are known, the formats are read that they stand for. -/
theorem read_of_known (hns : NamesOf s ns) (hknown : ∀ n ∈ ns, n ∈ known) :
    ∃ fs, read s = .ok fs ∧ ∀ n f, (n, f) ∈ names → (f ∈ fs ↔ n ∈ ns) := by
  have hnames := namesIn_eq_iff.mpr hns
  have hnone : ((namesIn s).filter fun n => (names.lookup n).isNone).isEmpty = true := by
    simp only [List.isEmpty_iff, List.filter_eq_nil_iff, hnames, lookup_isNone_iff, not_not]
    exact hknown
  refine ⟨(namesIn s).filterMap fun n => names.lookup n, by simp only [read, hnone, if_true], ?_⟩
  intro n f hnf
  have hunique : ∀ m, (m, f) ∈ names → m = n := by
    intro m hmf
    have hkeys : ∀ p ∈ names, ∀ q ∈ names, p.2 = q.2 → p.1 = q.1 := by decide
    exact hkeys _ hmf _ hnf rfl
  simp only [List.mem_filterMap, hnames, lookup_eq_some_iff]
  constructor
  · rintro ⟨m, hm, hmf⟩
    rwa [← hunique m hmf]
  · exact fun hn => ⟨n, hn, hnf⟩

end PlaneSketch.Format
