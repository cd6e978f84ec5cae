import Mathlib.Data.List.Basic
import PlaneSketch.Session

/-!
# Runs of a session

`View.Answers` says what a view has to be for a pair of texts and the transform that was passed on, part by part.
`Session.inEffect` is the transform in effect after some outcomes: that of the last one that is a view.

* `View.update_eq_ok_iff`: a pair of texts gives a view exactly if that view answers them.
* `Session.getElem?_run`: what is passed on to an entry of a run is the transform in effect before it, or none.
* `Session.run_answers`: what every view of a run is, and which transform is in effect after a run that always
  keeps it.
-/

namespace PlaneSketch

/-- The transform of a text that is accepted and composes. -/
def TransformText.taken? (s : String) : Option (Transform Binary64) :=
  match read s with
  | .ok (.ok t) => some t
  | _ => none

/-! ### One pair of texts -/

namespace View

/-- `view` is what a pair of texts has to give, `previous` being the transform that was passed on. -/
structure Answers (transformText rectangleText : String) (previous : Option (Transform Binary64)) (view : View) :
    Prop where
  no_fault : ∀ fault, TransformText.read transformText ≠ .ok (.error fault)
  transform_of_taken : ∀ t, TransformText.read transformText = .ok (.ok t) → view.transform = t
  transform_of_rejected : ∀ rejected, TransformText.read transformText = .error rejected →
    view.transform = previous.getD Transform.identity
  paths_eq_nil_iff : view.paths = [] ↔ ∃ fault, Rectangle.read rectangleText = .error fault
  paths_eq : ∀ p q, Rectangle.read rectangleText = .ok ⟨p, q⟩ →
    view.paths = [⟨[p, ⟨p.x, q.y⟩, q, ⟨q.x, p.y⟩, p], some view.transform, .black⟩]
  accepted_iff : view.accepted = true ↔
    (∃ t, TransformText.read transformText = .ok (.ok t)) ∧ ∃ r, Rectangle.read rectangleText = .ok r
  status_of_no_rectangle : ∀ fault, Rectangle.read rectangleText = .error fault → view.status = rejectedRectangle
  status_of_rejected : ∀ r rejected, Rectangle.read rectangleText = .ok r →
    TransformText.read transformText = .error rejected → view.status = rejectedTransform
  status_of_taken : ∀ r t, Rectangle.read rectangleText = .ok r →
    TransformText.read transformText = .ok (.ok t) → view.status = view.transform.summary

variable {transformText rectangleText : String} {previous : Option (Transform Binary64)} {view : View}

theorem ofTransform_of_error {t : Transform Binary64} {accepted : Bool} {fault : Fault}
    (h : Rectangle.read rectangleText = .error fault) :
    ofTransform t accepted rectangleText = ⟨t, [], rejectedRectangle, false⟩ := by
  simp only [ofTransform, h]

theorem ofTransform_of_ok {t : Transform Binary64} {accepted : Bool} {r : Rectangle Binary64}
    (h : Rectangle.read rectangleText = .ok r) :
    ofTransform t accepted rectangleText =
      ⟨t, [⟨r.outline, some t, .black⟩], if accepted then t.summary else rejectedTransform, accepted⟩ := by
  simp only [ofTransform, h, Path.ofRectangle]

/-- The view of a transform answers a pair of texts if both agree on where it comes from. -/
theorem answers_ofTransform {t : Transform Binary64} {accepted : Bool}
    (hfault : ∀ fault, TransformText.read transformText ≠ .ok (.error fault))
    (htaken : ∀ u, TransformText.read transformText = .ok (.ok u) → t = u ∧ accepted = true)
    (hrejected : ∀ rejected, TransformText.read transformText = .error rejected →
      t = previous.getD Transform.identity ∧ accepted = false) :
    Answers transformText rectangleText previous (ofTransform t accepted rectangleText) := by
  -- a text that is neither taken nor rejected has made a fault, which is ruled out
  have haccepted : accepted = true ↔ ∃ u, TransformText.read transformText = .ok (.ok u) := by
    constructor
    · intro ha
      cases h : TransformText.read transformText with
      | error rejected => simp [(hrejected rejected h).2] at ha
      | ok outcome =>
        cases outcome with
        | error fault => exact absurd h (hfault fault)
        | ok u => exact ⟨u, rfl⟩
    · rintro ⟨u, hu⟩
      exact (htaken u hu).2
  cases hr : Rectangle.read rectangleText with
  | error fault =>
    rw [ofTransform_of_error hr]
    exact {
      no_fault := hfault
      transform_of_taken := fun u hu => (htaken u hu).1
      transform_of_rejected := fun rejected h => (hrejected rejected h).1
      paths_eq_nil_iff := by simp [hr]
      paths_eq := by simp [hr]
      accepted_iff := by simp [hr]
      status_of_no_rectangle := fun _ _ => rfl
      status_of_rejected := by simp [hr]
      status_of_taken := by simp [hr] }
  | ok r =>
    rw [ofTransform_of_ok hr]
    exact {
      no_fault := hfault
      transform_of_taken := fun u hu => (htaken u hu).1
      transform_of_rejected := fun rejected h => (hrejected rejected h).1
      paths_eq_nil_iff := by simp [hr]
      paths_eq := by
        rintro p q hpq
        rw [hr, Except.ok.injEq] at hpq
        subst hpq
        rfl
      accepted_iff := by simp [hr, haccepted]
      status_of_no_rectangle := by simp [hr]
      status_of_rejected := fun _ rejected _ h => by simp [(hrejected rejected h).2]
      status_of_taken := fun _ u _ hu => by simp [(htaken u hu).2] }

theorem answers_of_update_eq_ok (h : update transformText rectangleText previous = .ok view) :
    Answers transformText rectangleText previous view := by
  unfold update at h
  split at h
  · rename_i rejected hread
    rw [← Except.ok.inj h]
    exact answers_ofTransform (by simp [hread]) (by simp [hread]) (by simp)
  · rename_i t hread
    rw [← Except.ok.inj h]
    exact answers_ofTransform (by simp [hread]) (by simp [hread]) (by simp [hread])
  · simp at h

theorem Answers.unique {other : View} (h : Answers transformText rectangleText previous view)
    (hother : Answers transformText rectangleText previous other) : view = other := by
  -- each field is fixed by what the two texts are read as
  have htransform : view.transform = other.transform := by
    cases hread : TransformText.read transformText with
    | error rejected => rw [h.transform_of_rejected _ hread, hother.transform_of_rejected _ hread]
    | ok outcome =>
      cases outcome with
      | error fault => exact absurd hread (h.no_fault fault)
      | ok t => rw [h.transform_of_taken t hread, hother.transform_of_taken t hread]
  have haccepted : view.accepted = other.accepted := by
    rw [Bool.eq_iff_iff, h.accepted_iff, hother.accepted_iff]
  have hpaths : view.paths = other.paths := by
    cases hr : Rectangle.read rectangleText with
    | error fault => rw [h.paths_eq_nil_iff.mpr ⟨fault, hr⟩, hother.paths_eq_nil_iff.mpr ⟨fault, hr⟩]
    | ok r => rw [h.paths_eq _ _ hr, hother.paths_eq _ _ hr, htransform]
  have hstatus : view.status = other.status := by
    cases hr : Rectangle.read rectangleText with
    | error fault => rw [h.status_of_no_rectangle _ hr, hother.status_of_no_rectangle _ hr]
    | ok r =>
      cases hread : TransformText.read transformText with
      | error rejected => rw [h.status_of_rejected _ _ hr hread, hother.status_of_rejected _ _ hr hread]
      | ok outcome =>
        cases outcome with
        | error fault => exact absurd hread (h.no_fault fault)
        | ok t => rw [h.status_of_taken _ _ hr hread, hother.status_of_taken _ _ hr hread, htransform]
  cases view
  cases other
  simp_all

theorem exists_update_eq_ok (h : ∀ fault, TransformText.read transformText ≠ .ok (.error fault)) :
    ∃ view, update transformText rectangleText previous = .ok view := by
  unfold update
  split
  · exact ⟨_, rfl⟩
  · exact ⟨_, rfl⟩
  · rename_i fault hread
    exact absurd hread (h fault)

/-- A pair of texts gives exactly the view that answers it. -/
theorem update_eq_ok_iff :
    update transformText rectangleText previous = .ok view ↔
      Answers transformText rectangleText previous view := by
  constructor
  · exact answers_of_update_eq_ok
  · intro h
    obtain ⟨other, hother⟩ : ∃ other, update transformText rectangleText previous = .ok other :=
      exists_update_eq_ok h.no_fault
    rw [hother, h.unique (answers_of_update_eq_ok hother)]

end View

/-! ### Runs -/

namespace Session

/-- The transform in effect after some outcomes: that of the last view among them, or the one at the start. -/
def inEffect (start : Option (Transform Binary64)) (outcomes : List (Except Fault View)) :
    Option (Transform Binary64) :=
  ((outcomes.filterMap Except.toOption).getLast?.map View.transform).or start

variable {start : Option (Transform Binary64)}

theorem inEffect_append (earlier later : List (Except Fault View)) :
    inEffect start (earlier ++ later) = inEffect (inEffect start earlier) later := by
  simp only [inEffect, List.filterMap_append, List.getLast?_append]
  cases (later.filterMap Except.toOption).getLast? <;> rfl

theorem run_cons (entry : Entry) (rest : List Entry) :
    run start (entry :: rest) =
      let outcome := View.update entry.transformText entry.rectangleText (if entry.keep then start else none)
      outcome :: run (inEffect start [outcome]) rest := by
  rw [run]
  cases View.update entry.transformText entry.rectangleText (if entry.keep then start else none) <;> rfl

theorem length_run (entries : List Entry) : (run start entries).length = entries.length := by
  induction entries generalizing start with
  | nil => rfl
  | cons entry rest ih => rw [run_cons, List.length_cons, ih, List.length_cons]

/-- An entry of a run is taken with the transform in effect before it, or with none if it is not kept. -/
theorem getElem?_run {entries : List Entry} {i : Nat} {entry : Entry} (h : entries[i]? = some entry) :
    (run start entries)[i]? = some (View.update entry.transformText entry.rectangleText
      (if entry.keep then inEffect start ((run start entries).take i) else none)) := by
  induction entries generalizing start i with
  | nil => simp at h
  | cons first rest ih =>
    rw [run_cons]
    cases i with
    | zero =>
      rw [List.getElem?_cons_zero, Option.some.injEq] at h
      subst h
      rfl
    | succ i =>
      rw [List.getElem?_cons_succ] at h
      rw [List.getElem?_cons_succ, List.take_succ_cons, ih h, ← inEffect_append, List.singleton_append]

/-- An entry that is kept puts the transform of its text in effect if it is accepted, and leaves it as it was if
not. -/
theorem inEffect_kept (s r : String) :
    (inEffect start [View.update s r start]).getD Transform.identity =
      (TransformText.taken? s).getD (start.getD Transform.identity) := by
  unfold TransformText.taken? View.update View.ofTransform
  cases TransformText.read s with
  | error rejected => cases Rectangle.read r <;> rfl
  | ok outcome =>
    cases outcome with
    | error fault => rfl
    | ok t => cases Rectangle.read r <;> rfl

/-- After a run that always keeps the transform, the one in effect is that of the last accepted text, or else the
one at the start. -/
theorem inEffect_run_kept {entries : List Entry} (h : ∀ entry ∈ entries, entry.keep = true) :
    (inEffect start (run start entries)).getD Transform.identity =
      (entries.filterMap fun entry => TransformText.taken? entry.transformText).getLast?.getD
        (start.getD Transform.identity) := by
  induction entries generalizing start with
  | nil => rfl
  | cons entry rest ih =>
    rw [List.forall_mem_cons] at h
    rw [run_cons, if_pos h.1, ← List.singleton_append, inEffect_append, ih h.2, inEffect_kept,
      List.filterMap_cons]
    cases TransformText.taken? entry.transformText with
    | none => rfl
    | some t => rw [List.getLast?_cons, Option.getD_some, Option.getD_some]

/-- **Runs**: every entry whose text does not end in a fault gives a view, and every view of a run answers its
texts, given the transform in effect before it or, if that is not kept, none. After a run that always keeps it, the
transform in effect is that of the last accepted text, or else the one at the start. -/
theorem run_answers (start : Option (Transform Binary64)) (entries : List Entry) :
    (run start entries).length = entries.length ∧
    (∀ i entry, entries[i]? = some entry →
      ((∀ fault, TransformText.read entry.transformText ≠ .ok (.error fault)) →
        ∃ view : View, (run start entries)[i]? = some (.ok view)) ∧
      ∀ view : View, (run start entries)[i]? = some (.ok view) →
        view.Answers entry.transformText entry.rectangleText
          (if entry.keep then inEffect start ((run start entries).take i) else none)) ∧
    ((∀ entry ∈ entries, entry.keep = true) →
      (inEffect start (run start entries)).getD Transform.identity =
        (entries.filterMap fun entry => TransformText.taken? entry.transformText).getLast?.getD
          (start.getD Transform.identity)) := by
  refine ⟨length_run entries, ?_, inEffect_run_kept⟩
  intro i entry hentry
  rw [getElem?_run hentry]
  constructor
  · intro hfault
    obtain ⟨view, hview⟩ := View.exists_update_eq_ok hfault
    exact ⟨view, congrArg some hview⟩
  · intro view hview
    rw [Option.some.injEq] at hview
    exact View.update_eq_ok_iff.mp hview

/-- A bad rectangle, a fault and a bad transformation text one after another: the first transform stays. -/
theorem run_bad_rectangle_fault_bad_text :
    let entries : List Entry := [⟨"S(2,2)", "", true⟩, ⟨"S(1,1)*T(1e308,0)*T(1e308,0)", "0 0 1 1", true⟩,
      ⟨"X", "0 0 1 1", true⟩]
    (∃ view : View, (run none entries)[2]? = some (.ok view) ∧ view.transform = Transform.scaling 2 2 ∧
      view.paths.length = 1 ∧ view.accepted = false ∧ view.status = View.rejectedTransform) ∧
    (inEffect none (run none entries)).getD Transform.identity = Transform.scaling 2 2 := by
  intro entries
  have htaken : TransformText.read "S(2,2)" = .ok (.ok (Transform.scaling 2 2)) := by decide +kernel
  have hfault : TransformText.read "S(1,1)*T(1e308,0)*T(1e308,0)" = .ok (.error (.lastRow ⟨0, 0, .nan⟩)) := by decide +kernel
  have hrejected : TransformText.read "X" = .error ⟨.unknownOperation, "X"⟩ := by decide +kernel
  have hempty : Rectangle.read "" = .error (.notFourNumbers "") := by decide +kernel
  have hsquare : Rectangle.read "0 0 1 1" = .ok ⟨⟨0, 0⟩, ⟨1, 1⟩⟩ := by decide +kernel
  obtain ⟨-, hentries, hkept⟩ := run_answers none entries
  obtain ⟨hview, hanswers⟩ := hentries 2 _ rfl
  obtain ⟨view, hview⟩ := hview (by simp [hrejected])
  have hanswer := hanswers view hview
  have hfirst : View.update "S(2,2)" "" none =
      .ok ⟨Transform.scaling 2 2, [], View.rejectedRectangle, false⟩ := by
    simp [View.update, htaken, View.ofTransform_of_error hempty]
  have hsecond : View.update "S(1,1)*T(1e308,0)*T(1e308,0)" "0 0 1 1" (some (Transform.scaling 2 2)) =
      .error (.lastRow ⟨0, 0, .nan⟩) := by
    simp [View.update, hfault]
  have hprevious : inEffect none ((run none entries).take 2) = some (Transform.scaling 2 2) := by
    simp only [entries, run, if_true, hfirst, hsecond]
    rfl
  refine ⟨⟨view, hview, ?_, ?_, ?_, ?_⟩, ?_⟩
  · rw [hanswer.transform_of_rejected _ hrejected, if_pos rfl, hprevious]
    rfl
  · rw [hanswer.paths_eq _ _ hsquare]
    rfl
  · rw [← Bool.not_eq_true, hanswer.accepted_iff]
    simp [hrejected]
  · exact hanswer.status_of_rejected _ _ hsquare hrejected
  · rw [hkept (by simp [entries])]
    simp [entries, TransformText.taken?, htaken, hfault, hrejected]

end Session

end PlaneSketch
