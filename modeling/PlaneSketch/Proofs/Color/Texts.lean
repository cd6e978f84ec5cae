import PlaneSketch.Canvas.Basic
import PlaneSketch.Proofs.Canvas.Faults
import PlaneSketch.Proofs.Color.Normalized
import PlaneSketch.Proofs.Text.LowerCase

/-!
# Colours from texts

A text makes a colour if it is empty, a name in any letter case, or a code: three or six hexadecimal digits behind `#`.
Any other text is reported as an unknown colour, except for most of those that begin with `#`: they are reported as
malformed codes. Whatever needs the colour passes its fault on.

* `isSome_ofCode?_iff`: codes.
* `exists_color_of_byteColor`: every colour in bytes comes back from its conversion.
* `color_outcomes`: what comes of a text.
-/

namespace PlaneSketch

open Binary64

namespace ColorSpec

/-! ### Codes -/

/-- A hexadecimal digit, in either letter case. -/
def IsHexDigit (c : Char) : Prop := ('0' ≤ c ∧ c ≤ '9') ∨ ('A' ≤ c ∧ c ≤ 'F') ∨ ('a' ≤ c ∧ c ≤ 'f')

/-- Exactly three or exactly six hexadecimal digits behind `#`. -/
def IsCode (s : List Char) : Prop :=
  ∃ digits, s = '#' :: digits ∧ (∀ d ∈ digits, IsHexDigit d) ∧ (digits.length = 3 ∨ digits.length = 6)

theorem isSome_hexValue?_iff {c : Char} : (hexValue? c).isSome = true ↔ IsHexDigit c := by
  have hchar : ∀ {d e : Char}, d ≤ e ↔ d.toNat ≤ e.toNat := Iff.rfl
  have hdigits : ('0' : Char).toNat = 48 ∧ ('9' : Char).toNat = 57 := ⟨rfl, rfl⟩
  have hcapitals : ('A' : Char).toNat = 65 ∧ ('F' : Char).toNat = 70 := ⟨rfl, rfl⟩
  have hletters : ('a' : Char).toNat = 97 ∧ ('f' : Char).toNat = 102 := ⟨rfl, rfl⟩
  simp only [IsHexDigit, hchar, hexValue?, hdigits, hcapitals, hletters]
  split_ifs <;> simp <;> omega

theorem hexValue?_le {c : Char} {n : ℕ} (h : hexValue? c = some n) : n ≤ 15 := by
  unfold hexValue? at h
  dsimp only at h
  split_ifs at h <;> have := Option.some.inj h <;> omega

theorem isSome_hexValues?_iff {s : List Char} : (hexValues? s).isSome = true ↔ ∀ c ∈ s, IsHexDigit c := by
  unfold hexValues?
  induction s with
  | nil => simp
  | cons c s ih =>
    rw [List.mapM_cons, List.forall_mem_cons, ← ih, ← isSome_hexValue?_iff]
    cases hexValue? c <;> cases s.mapM hexValue? <;> simp

theorem hexValues?_spec {s : List Char} {ns : List ℕ} (h : hexValues? s = some ns) :
    ns.length = s.length ∧ ∀ n ∈ ns, n ≤ 15 := by
  unfold hexValues? at h
  induction s generalizing ns with
  | nil => cases h; simp
  | cons c s ih =>
    rw [List.mapM_cons] at h
    cases hc : hexValue? c with
    | none => simp [hc] at h
    | some n =>
      cases hs : s.mapM hexValue? with
      | none => simp [hc, hs] at h
      | some ms =>
        obtain ⟨hlength, hall⟩ := ih hs
        simp only [hc, hs, Option.pure_def, Option.bind_eq_bind, Option.bind_some, Option.some.injEq] at h
        subst h
        simpa [hlength, hexValue?_le hc] using hall

theorem isSome_ofCode?_iff {digits : List Char} :
    (ofCode? digits).isSome = true ↔ (∀ d ∈ digits, IsHexDigit d) ∧ (digits.length = 3 ∨ digits.length = 6) := by
  rw [← isSome_hexValues?_iff]
  unfold ofCode?
  cases hvalues : hexValues? digits with
  | none => simp
  | some ns =>
    rw [← (hexValues?_spec hvalues).1, Option.bind_some]
    rcases ns with _ | ⟨a, _ | ⟨b, _ | ⟨c, _ | ⟨d, _ | ⟨e, _ | ⟨f, _ | ⟨g, ns⟩⟩⟩⟩⟩⟩⟩ <;> simp [ofHexDigits?]

theorem isCode_cons_iff {digits : List Char} : IsCode ('#' :: digits) ↔ (ofCode? digits).isSome = true := by
  simp [IsCode, isSome_ofCode?_iff]

/-! ### Bytes -/

end ColorSpec

/-- Every component fits a byte. -/
def ByteColor.InBytes (c : ByteColor) : Prop := c.red ≤ 255 ∧ c.green ≤ 255 ∧ c.blue ≤ 255

instance (c : ByteColor) : Decidable c.InBytes := inferInstanceAs (Decidable (_ ∧ _))

theorem inBytes_of_mem_namedColors : ∀ p ∈ namedColors, p.2.InBytes := by decide +kernel

namespace ColorSpec

theorem inBytes_of_ofCode? {digits : List Char} {c : ByteColor} (h : ofCode? digits = some c) : c.InBytes := by
  obtain ⟨ns, hns, hc⟩ := Option.bind_eq_some_iff.mp h
  have hle := (hexValues?_spec hns).2
  unfold ofHexDigits? at hc
  split at hc
  · obtain rfl := Option.some.inj hc
    simp only [List.forall_mem_cons] at hle
    simp only [ByteColor.InBytes]
    omega
  · obtain rfl := Option.some.inj hc
    simp only [List.forall_mem_cons] at hle
    simp only [ByteColor.InBytes]
    omega
  · cases hc

theorem inBytes_of_byteColor {s : String} {c : ByteColor} (h : byteColor s = .ok c) : c.InBytes := by
  unfold byteColor at h
  split at h
  · obtain rfl := Except.ok.inj h
    decide
  · split at h
    · rename_i hcode
      obtain rfl := Except.ok.inj h
      exact inBytes_of_ofCode? hcode
    · split at h <;> cases h
  · split at h
    · rename_i hname
      obtain rfl := Except.ok.inj h
      obtain ⟨before, after, htable, -⟩ := List.lookup_eq_some_iff.mp hname
      exact inBytes_of_mem_namedColors (_, _) (htable ▸ List.mem_append_right before List.mem_cons_self)
    · cases h

end ColorSpec

/-- Bytes are fractions between zero and one. -/
theorem ByteColor.within_toRgb {c : ByteColor} (hc : c.InBytes) : c.toRgb.Within 0 1 := by
  have hfraction : ∀ n ≤ 255, ∃ v, (ofFraction n 255).rational? = some v ∧ 0 ≤ v ∧ v ≤ 1 := by
    intro n hn
    have hn : (n : ℚ) ≤ 255 := by exact_mod_cast hn
    have hlow : 0 ≤ (n : ℚ) / (255 : ℕ) := by positivity
    have hhigh : (n : ℚ) / (255 : ℕ) ≤ 1 := by
      rw [div_le_one (by norm_num)]
      exact_mod_cast hn
    obtain ⟨v, hv, -⟩ := (isRounding_ofFraction n (by decide : 0 < 255)).exists_near (by linarith) (by linarith)
    exact ⟨v, hv.value, hv.ge isValue_zero hlow, hv.le isValue_one hhigh⟩
  simp only [Rgb.Within, Rgb.channels, List.forall_mem_cons]
  exact ⟨hfraction _ hc.1, hfraction _ hc.2.1, hfraction _ hc.2.2, by simp⟩

namespace ColorSpec

theorem color_named (s : String) :
    color (.named s) = byteColor s >>= fun c => c.toRgb.normalized >>= fun c => .ok (Color.ofRgb c 1) := rfl

/-- **Every colour in bytes** comes back from its conversion. -/
theorem exists_color_of_byteColor {s : String} {c : ByteColor} (h : byteColor s = .ok c) :
    ∃ k, color (.named s) = .ok k := by
  obtain ⟨c', hc'⟩ := Rgb.exists_normalized (ByteColor.within_toRgb (inBytes_of_byteColor h))
  exact ⟨Color.ofRgb c' 1, (color_named s).trans (bind_eq_ok h (bind_eq_ok hc' rfl))⟩

theorem color_of_byteColor_error {s : String} {fault : Fault} (h : byteColor s = .error fault) :
    color (.named s) = .error fault := by
  rw [color_named, h]
  rfl

/-! ### Names, codes and other texts -/

/-- In lower case, the text is one of the named colours. -/
def IsName (s : List Char) : Prop := String.ofList (Text.lower s) ∈ namedColors.map Prod.fst

/-- The text begins with `#`, but is not a code, nor a code with one line break behind it. -/
def IsMalformed (s : List Char) : Prop :=
  (∃ rest, s = '#' :: rest) ∧ ¬ IsCode s ∧ ¬ ∃ code, IsCode code ∧ s = code ++ ['\n']

theorem isSome_lookup_iff_mem_keys {α : Type} {table : List (String × α)} {name : String} :
    (table.lookup name).isSome = true ↔ name ∈ table.map Prod.fst := by
  simp only [List.lookup_isSome_iff, List.mem_map, beq_iff_eq]
  exact exists_congr fun p => and_congr_right fun _ => eq_comm

theorem isName_iff {s : List Char} : IsName s ↔ (ofName? s).isSome = true := isSome_lookup_iff_mem_keys.symm

/-- No name begins with `#`. -/
theorem not_isName_of_code (rest : List Char) : ¬ IsName ('#' :: rest) := by
  have huncased : Text.Uncased '#' := ⟨by decide, by decide, by decide⟩
  have hnames : ∀ name ∈ namedColors.map Prod.fst, name.toList.head? ≠ some '#' := by decide +kernel
  intro hname
  have hlower : Text.lower ('#' :: rest) = '#' :: Text.lower rest := huncased.lower_append [] rest
  refine hnames _ hname ?_
  rw [hlower, String.toList_ofList, List.head?_cons]

theorem isCode_append_lineBreak_iff {rest : List Char} :
    (∃ code, IsCode code ∧ '#' :: rest = code ++ ['\n']) ↔
      rest.getLast? = some '\n' ∧ (ofCode? rest.dropLast).isSome = true := by
  rw [← isCode_cons_iff]
  constructor
  · rintro ⟨code, hcode, heq⟩
    obtain ⟨digits, rfl, -⟩ := id hcode
    obtain rfl : rest = digits ++ ['\n'] := List.cons_inj_right _ |>.mp heq
    simpa using hcode
  · rintro ⟨hlast, hcode⟩
    refine ⟨_, hcode, ?_⟩
    rw [List.cons_append, List.dropLast_append_getLast? _ hlast]

theorem IsMalformed.not_color {s : String} (h : IsMalformed s.toList) :
    ¬ (s = "" ∨ IsName s.toList ∨ IsCode s.toList) := by
  obtain ⟨⟨rest, heq⟩, hcode, -⟩ := h
  rintro (rfl | hname | hcode')
  · cases heq
  · exact not_isName_of_code rest (heq ▸ hname)
  · exact hcode hcode'

/-- A text makes a colour, or it is a malformed code, or it is unknown. -/
theorem byteColor_cases (s : String) :
    ((∃ c, byteColor s = .ok c) ∧ (s = "" ∨ IsName s.toList ∨ IsCode s.toList)) ∨
    ¬ (s = "" ∨ IsName s.toList ∨ IsCode s.toList) ∧
      ((byteColor s = .error (.malformedCode s) ∧ IsMalformed s.toList) ∨
      byteColor s = .error (.unknownColor s) ∧ ¬ IsMalformed s.toList) := by
  have hempty : s = "" ↔ s.toList = [] := String.toList_eq_nil_iff.symm
  unfold byteColor
  rw [hempty]
  generalize s.toList = cs
  -- the cases are those of the reader: nothing, a `#` in front, or any other text
  split
  · exact .inl ⟨⟨_, rfl⟩, .inl rfl⟩
  · rename_i digits
    have hname := not_isName_of_code digits
    split
    · rename_i c hc
      exact .inl ⟨⟨c, rfl⟩, .inr (.inr (isCode_cons_iff.mpr (by rw [hc]; rfl)))⟩
    · rename_i hc
      have hcode : ¬ IsCode ('#' :: digits) := by simp [isCode_cons_iff, hc]
      refine .inr ⟨by simp [hname, hcode], ?_⟩
      split
      · rename_i hbreak
        exact .inr ⟨rfl, fun h => h.2.2 (isCode_append_lineBreak_iff.mpr hbreak)⟩
      · rename_i hbreak
        exact .inl ⟨rfl, ⟨digits, rfl⟩, hcode, fun h => hbreak (isCode_append_lineBreak_iff.mp h)⟩
  · rename_i hnil hcons
    have hcode : ¬ IsCode cs := fun ⟨digits, heq, _⟩ => hcons digits heq
    have hmalformed : ¬ IsMalformed cs := fun ⟨⟨rest, heq⟩, _⟩ => hcons rest heq
    split
    · rename_i c hc
      exact .inl ⟨⟨c, rfl⟩, .inr (.inl (isName_iff.mpr (by rw [hc]; rfl)))⟩
    · rename_i hc
      have hname : ¬ IsName cs := by simp [isName_iff, hc]
      exact .inr ⟨by simp [hcode, hname]; exact hnil, .inr ⟨rfl, hmalformed⟩⟩

end ColorSpec

/-! ### Whatever needs a colour -/

namespace Canvas

variable {c : Canvas} {fault : Fault}

theorem drawPath_of_color_error {p : Path Binary64} (h : p.color.color = .error fault) :
    c.drawPath p = .stop fault := by
  have hpaint : c.paint p.color = .error fault := PaintSpec.paint_of_color_error h
  rw [drawPath, hpaint]
  rfl

/-- Clearing fails for a background without a colour, and then for axes that are to be shown without one. -/
theorem clear_fault_of_color_error (h : c.parameters.background.color = .error fault ∨
    c.parameters.showAxes = true ∧ c.parameters.axesColor.color = .error fault ∧
      ∃ k, c.parameters.background.color = .ok k) : c.clear.fault = some fault := by
  rcases h with h | ⟨haxes, h, k, hk⟩
  · rw [clear, h]
    rfl
  · have hpaint : c.paint c.parameters.axesColor = .error fault := PaintSpec.paint_of_color_error h
    rw [clear, hk, if_pos haxes, drawAxes, hpaint]
    rfl

variable {surfaces : SurfaceMaker} {w h : Number} {parameters : Parameters} {area : Area Binary64}

theorem make_of_clear_fault (hw : w.isPositive = true) (hh : h.isPositive = true)
    (harea : Area.make w h parameters.padding surfaces.make = .ok area)
    (hclear : (Canvas.mk (w, h) parameters area).clear.fault = some fault) :
    make surfaces [w, h] parameters = .error fault := by
  simp only [make, hw, hh, harea, Bool.and_self, if_true, bind, Except.bind]
  generalize (Canvas.mk (w, h) parameters area).clear = t at hclear ⊢
  obtain ⟨calls, _ | fault'⟩ := t
  · cases hclear
  · exact congrArg Except.error (Option.some.inj hclear)

/-- A canvas is not made without the colour of its background, nor without that of axes to be shown. -/
theorem make_of_color_error {color : ColorSpec} (hcolor : color.color = .error fault) (hw : w.isPositive = true)
    (hh : h.isPositive = true) (harea : Area.make w h parameters.padding surfaces.make = .ok area)
    (huse : parameters.background = color ∨ parameters.showAxes = true ∧ parameters.axesColor = color ∧
      ∃ k, parameters.background.color = .ok k) : make surfaces [w, h] parameters = .error fault := by
  refine make_of_clear_fault hw hh harea (clear_fault_of_color_error ?_)
  rcases huse with hbackground | ⟨haxes, haxesColor, hk⟩
  · exact .inl (hbackground ▸ hcolor)
  · exact .inr ⟨haxes, haxesColor ▸ hcolor, hk⟩

end Canvas

/-! ### Outcomes -/

namespace ColorSpec

/-- The three kinds of texts, by what comes of them. -/
theorem color_kinds (s : String) :
    ((∃ k, color (.named s) = .ok k) ↔ s = "" ∨ IsName s.toList ∨ IsCode s.toList) ∧
    (color (.named s) = .error (.malformedCode s) ↔ IsMalformed s.toList) ∧
    (color (.named s) = .error (.unknownColor s) ↔
      ¬ (s = "" ∨ IsName s.toList ∨ IsCode s.toList) ∧ ¬ IsMalformed s.toList) ∧
    ∀ fault, color (.named s) = .error fault → fault = .unknownColor s ∨ fault = .malformedCode s := by
  rcases byteColor_cases s with ⟨⟨c, hc⟩, hgood⟩ | ⟨hbad, ⟨hc, hmalformed⟩ | ⟨hc, hmalformed⟩⟩
  · obtain ⟨k, hk⟩ := exists_color_of_byteColor hc
    have hmalformed : ¬ IsMalformed s.toList := fun h => h.not_color hgood
    exact ⟨iff_of_true ⟨k, hk⟩ hgood, iff_of_false (by simp [hk]) hmalformed,
      iff_of_false (by simp [hk]) fun h => h.1 hgood, by simp [hk]⟩
  · have hcolor := color_of_byteColor_error hc
    refine ⟨iff_of_false (by simp [hcolor]) hbad, iff_of_true hcolor hmalformed,
      iff_of_false (by simp [hcolor]) fun h => h.2 hmalformed, fun fault hfault => .inr ?_⟩
    exact Except.error.inj (hfault.symm.trans hcolor)
  · have hcolor := color_of_byteColor_error hc
    refine ⟨iff_of_false (by simp [hcolor]) hbad, iff_of_false (by simp [hcolor]) hmalformed,
      iff_of_true hcolor ⟨hbad, hmalformed⟩, fun fault hfault => .inl ?_⟩
    exact Except.error.inj (hfault.symm.trans hcolor)

/-- **What comes of a text**: the empty text, the names in any letter case and the codes make colours. Every other text
is reported as an unknown colour, except for those that begin with `#` and are not a code, nor a code with a line break
behind it: they are malformed codes. Paints, paths and canvases that need the colour pass the fault on. -/
theorem color_outcomes (s : String) :
    ((∃ k, color (.named s) = .ok k) ↔ s = "" ∨ IsName s.toList ∨ IsCode s.toList) ∧
    (color (.named s) = .error (.malformedCode s) ↔ IsMalformed s.toList) ∧
    (color (.named s) = .error (.unknownColor s) ↔
      ¬ (s = "" ∨ IsName s.toList ∨ IsCode s.toList) ∧ ¬ IsMalformed s.toList) ∧
    ((Fault.unknownColor s).kind = .value ∧
      ∀ rowText, (Fault.unknownColor s).message? rowText = some ("Unknown color: " ++ s)) ∧
    (Fault.malformedCode s).kind = .attribute ∧
    ∀ fault, color (.named s) = .error fault → (fault = .unknownColor s ∨ fault = .malformedCode s) ∧
      (∀ p : PaintSpec, p.color = .named s → p.paint = .error fault) ∧
      (∀ (c : Canvas) (p : Path Binary64), p.color = .named s → c.drawPath p = .stop fault) ∧
      ∀ (surfaces : SurfaceMaker) (w h : Number) (parameters : Parameters) area, w.isPositive = true →
        h.isPositive = true → Area.make w h parameters.padding surfaces.make = .ok area →
        parameters.background = .named s ∨ (parameters.showAxes = true ∧ parameters.axesColor = .named s ∧
          ∃ k, parameters.background.color = .ok k) →
        Canvas.make surfaces [w, h] parameters = .error fault := by
  obtain ⟨hcolor, hmalformed, hunknown, hfaults⟩ := color_kinds s
  -- a fault of the colour comes before whatever else a paint or a path could be refused for; a canvas has its area then
  refine ⟨hcolor, hmalformed, hunknown, ⟨rfl, fun _ => rfl⟩, rfl, fun fault herror => ⟨hfaults fault herror, ?_, ?_, ?_⟩⟩
  · exact fun p hp => PaintSpec.paint_of_color_error (hp ▸ herror)
  · exact fun c p hp => Canvas.drawPath_of_color_error (hp ▸ herror)
  · exact fun surfaces w h parameters area hw hh harea huse => Canvas.make_of_color_error herror hw hh harea huse

/-- A name in capitals, a short code, and two unknown colours that a canvas and a path would need. -/
theorem red_code_and_unknown_colors :
    (∃ k, color (.named "RED") = .ok k) ∧ (∃ k, color (.named "#0aF") = .ok k) ∧
    Canvas.make .wordSized [.int 3, .int 2] { background := .named "#12345\n" } =
      .error (.malformedCode "#12345\n") ∧
    ∀ c : Canvas, c.drawPath ⟨[], none, .named "#000000\n"⟩ = .stop (.unknownColor "#000000\n") := by
  refine ⟨(color_outcomes "RED").1.mpr (.inr (.inl ?_)), (color_outcomes "#0aF").1.mpr (.inr (.inr ?_)), ?_, ?_⟩
  · exact isName_iff.mpr (by decide +kernel)
  · exact isCode_cons_iff.mpr (by decide +kernel)
  · obtain ⟨area, harea⟩ := exists_of_isOk (x := Area.make (Number.int 3) (.int 2) (.int 100) SurfaceMaker.wordSized.make)
      (by decide +kernel)
    have hcolor : color (.named "#12345\n") = .error (.malformedCode "#12345\n") :=
      color_of_byteColor_error (by decide +kernel)
    obtain ⟨-, -, -, hcanvas⟩ := (color_outcomes _).2.2.2.2.2 _ hcolor
    exact hcanvas _ _ _ _ area (by decide +kernel) (by decide +kernel) harea (.inl rfl)
  · intro c
    have hcolor : color (.named "#000000\n") = .error (.unknownColor "#000000\n") :=
      color_of_byteColor_error (by decide +kernel)
    exact ((color_outcomes _).2.2.2.2.2 _ hcolor).2.2.1 c _ rfl

/-- The empty text makes a colour, and a code of two digits is not reported as an unknown colour. -/
theorem empty_text_and_short_code :
    (∃ k, color (.named "") = .ok k) ∧ color (.named "#12") = .error (.malformedCode "#12") ∧
      (Fault.malformedCode "#12").kind ≠ .value ∧
      ∀ rowText, (Fault.malformedCode "#12").message? rowText ≠ some ("Unknown color: " ++ "#12") :=
  ⟨exists_color_of_byteColor rfl, color_of_byteColor_error (by decide +kernel), by decide,
    fun _ => by simp only [Fault.message?]; decide +kernel⟩

end ColorSpec

end PlaneSketch
