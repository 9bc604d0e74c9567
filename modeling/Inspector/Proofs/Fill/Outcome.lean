import Inspector.Proofs.Fill.Run
import Inspector.Proofs.Observation
import Inspector.Proofs.Outcome

/-!
# What one token does to a fill

A token of a fill is refused, or not known, or taken. Given again, a type, a color or an opacity
changes nothing at all; an image that is given again finds the fill presented and moves to the end
of the order, so that what is held stays the same.

    Outcome view Warning.isUnknown (·.step t) s                                   (outcome_step)
    ((s.step t).step t).draft.classes.get? k = (s.step t).draft.classes.get? k  (get?_step_step)
-/

namespace Inspector.Fill

open Text

/-- Beside its draft, a fill has a type and may have been presented. -/
def view : View State Concern Error Warning (Option Decision × Bool) where
  draft := State.draft
  meaning := fun s => (s.decision, s.seeded)

/-- The warnings about a token that is not known, or its key. -/
def Warning.isUnknown : Warning → Bool
  | .unknownKey _ | .unrecognized _ => true
  | _ => false

/-- The warning about an entry that is not known. -/
def Entry.unknowns : Entry → List Warning
  | .unknownKey key => [.unknownKey key]
  | .unrecognized text => [.unrecognized text]
  | _ => []

namespace State

variable (s : State)

/-! ## Types given again -/

/-- The concern whose values a kind rules out. -/
def rival : Kind → Concern
  | .image => .color
  | .solid => .url

theorem contains_rival_discardFor (kind : Kind) :
    (s.discardFor kind).draft.classes.contains (rival kind) = false := by
  cases kind with
  | image => simp [discardFor, rival]
  | solid =>
    by_cases h : s.draft.contains .url
    · rw [discardFor, if_pos h]
      simp [rival]
    · rw [discardFor, if_neg h]
      exact Bool.eq_false_iff.2 h

theorem discardFor_of_not_contains {kind : Kind}
    (h : s.draft.classes.contains (rival kind) = false) : s.discardFor kind = s := by
  cases kind with
  | image =>
    exact congrArg (fun d => { s with draft := d }) (Draft.discard_of_not_contains _ h _)
  | solid =>
    exact if_neg (Bool.eq_false_iff.1 h)

theorem errors_discardFor (kind : Kind) :
    (s.discardFor kind).draft.errors = s.draft.errors := by
  cases kind with
  | image => simp [discardFor]
  | solid =>
    simp only [discardFor]
    split
    · simp
    · rfl

theorem noted_discardFor (kind : Kind) : (s.discardFor kind).draft.noted Warning.isUnknown =
    s.draft.noted Warning.isUnknown := by
  cases kind with
  | image => exact Draft.noted_discard _ _ rfl
  | solid =>
    simp only [discardFor]
    split
    · exact Draft.noted_warn_of_neg _ rfl
    · rfl

theorem errors_setKind {value : Text} {kind : Kind}
    (h : Kind.ofName? (lower (trim value)) = some kind) :
    (s.setKind value).draft.errors = s.draft.errors := by
  simp only [setKind, h]
  split
  · exact s.errors_discardFor kind
  · exact s.errors_discardFor kind

theorem setKind_setKind {value : Text} {kind : Kind}
    (h : Kind.ofName? (lower (trim value)) = some kind) :
    (s.setKind value).setKind value = s.setKind value := by
  have given : ∃ s' : State, s.setKind value = { s' with decision := some ⟨kind, true⟩ } ∧
      s'.draft.classes.contains (rival kind) = false := by
    refine ⟨_, by rw [setKind, h], ?_⟩
    split
    · exact s.contains_rival_discardFor kind
    · exact s.contains_rival_discardFor kind
  obtain ⟨s', hs', hrival⟩ := given
  rw [hs']
  have keep := discardFor_of_not_contains { s' with decision := some ⟨kind, true⟩ } hrival
  simp [setKind, h, keep]

/-! ## Images given again -/

def imageClass (reference : Text) : Text := "bg-[url(" ++ reference ++ ")]"

theorem kind?_turnIntoImage : s.turnIntoImage.kind? = some .image := by
  unfold turnIntoImage
  split
  · rfl
  · rfl
  · next h => simp [kind?, h]

theorem errors_turnIntoImage : s.turnIntoImage.draft.errors = s.draft.errors := by
  unfold turnIntoImage
  split <;> simp

theorem turnIntoImage_of_image (h : s.kind? = some .image) : s.turnIntoImage = s := by
  obtain ⟨d, hd, hk⟩ := Option.map_eq_some_iff.1 h
  obtain ⟨kind, given⟩ := d
  cases hk
  rw [turnIntoImage, hd]

/-- The seeds are none of the references. -/
theorem get?_url_seed : s.seed.draft.classes.get? .url = s.draft.classes.get? .url := by
  unfold seed
  split
  · rfl
  · simp [presentation, ClassMap.get?_insert]

theorem seed_marks : s.seed.decision = s.decision ∧ s.seed.seeded = true ∧
    s.seed.draft.errors = s.draft.errors := by
  unfold seed
  split
  · next h => exact ⟨rfl, h, rfl⟩
  · exact ⟨rfl, rfl, by simp [presentation]⟩

theorem noted_setImage (value : Text) : (s.setImage value).draft.noted Warning.isUnknown =
    s.draft.noted Warning.isUnknown := by
  have turned : s.turnIntoImage.draft.noted Warning.isUnknown =
      s.draft.noted Warning.isUnknown := by
    unfold turnIntoImage
    split
    · rfl
    · exact Draft.noted_warn_of_neg _ rfl
    · rfl
  have seeded (s : State) : s.seed.draft.noted Warning.isUnknown =
      s.draft.noted Warning.isUnknown := by
    unfold seed
    split <;> rfl
  unfold setImage
  split
  · rfl
  · split
    · rfl
    · rw [seeded, Draft.noted_put _ _ _ rfl, turned]

variable {value r : Text}

/-- An image over an image that is presented with this reference. -/
theorem setImage_of_held (hr : Image.ofText? value = some r) (hk : s.kind? = some .image)
    (hs : s.seeded = true) (hu : s.draft.classes.get? .url = some [imageClass r]) :
    s.setImage value =
      { s with draft := { s.draft with classes := s.draft.classes.set .url [imageClass r] } } := by
  have free : s.decision ≠ some ⟨.solid, true⟩ := by
    intro h
    simp [kind?, h] at hk
  have put := Draft.put_of_get? s.draft hu (.superseded .image)
  simp only [setImage, hr, if_neg free, s.turnIntoImage_of_image hk]
  rw [show ("bg-[url(" ++ r ++ ")]" : Text) = imageClass r from rfl, put]
  exact if_pos hs

/-- What a fill is after an image that it takes. -/
theorem held_setImage (hr : Image.ofText? value = some r)
    (hd : s.decision ≠ some ⟨.solid, true⟩) :
    (s.setImage value).kind? = some .image ∧ (s.setImage value).seeded = true ∧
      (s.setImage value).draft.classes.get? .url = some [imageClass r] ∧
      (s.setImage value).draft.errors = s.draft.errors := by
  simp only [setImage, hr, if_neg hd]
  generalize hs' : ({ s.turnIntoImage with draft := s.turnIntoImage.draft.put _ _ _ } : State) = s'
  obtain ⟨hdecision, hseeded, herrors⟩ := s'.seed_marks
  refine ⟨?_, hseeded, ?_, ?_⟩
  · rw [kind?, hdecision, ← hs']
    exact s.kind?_turnIntoImage
  · rw [get?_url_seed, ← hs', Draft.classes_put, ClassMap.get?_set_self]
    rfl
  · rw [herrors, ← hs', Draft.errors_put, errors_turnIntoImage]

theorem setImage_setImage (hr : Image.ofText? value = some r)
    (hd : s.decision ≠ some ⟨.solid, true⟩) :
    (s.setImage value).setImage value = { s.setImage value with
      draft := { (s.setImage value).draft with
        classes := (s.setImage value).draft.classes.set .url [imageClass r] } } := by
  obtain ⟨hk, hs, hu, -⟩ := s.held_setImage hr hd
  exact setImage_of_held _ hr hk hs hu

theorem setImage_of_unreadable (hr : Image.ofText? value = none) :
    s.setImage value = s.error (.invalidImage value) := by
  rw [setImage, hr]

theorem setImage_of_solid (hr : Image.ofText? value = some r)
    (hd : s.decision = some ⟨.solid, true⟩) : s.setImage value = s.error (.imageOnSolid r) := by
  rw [setImage, hr]
  exact if_pos hd

/-! ## Colors given again -/

theorem setColor_of_image (hk : s.decision.any (·.kind == .image)) (value : Text) :
    s.setColor value = s.error (.colorOnImage value) :=
  if_pos hk

theorem setColor_of_unreadable (hk : s.decision.any (·.kind == .image) = false)
    (hc : Color.ofText? value "bg" = none) : s.setColor value = s.error (.invalidColor value) := by
  simp only [setColor, hk, hc, Bool.false_eq_true, if_false]

theorem setColor_of_color {c : Color} (hk : s.decision.any (·.kind == .image) = false)
    (hc : Color.ofText? value "bg" = some c) : s.setColor value = { s with
      draft := s.draft.put .color [c.classFor "bg"] (.superseded .color)
      decision := s.decision.or (some ⟨.solid, false⟩) } := by
  simp only [setColor, hk, hc, Bool.false_eq_true, if_false]

theorem setColor_setColor {c : Color} (hk : s.decision.any (·.kind == .image) = false)
    (hc : Color.ofText? value "bg" = some c) :
    (s.setColor value).setColor value = s.setColor value := by
  have solid : (s.decision.or (some ⟨.solid, false⟩)).any (·.kind == .image) = false := by
    cases h : s.decision with
    | none => rfl
    | some d => rwa [h] at hk
  have kept : (s.decision.or (some ⟨.solid, false⟩)).or (some ⟨.solid, false⟩) =
      s.decision.or (some ⟨.solid, false⟩) := by
    cases s.decision <;> rfl
  rw [setColor_of_color s hk hc, setColor_of_color _ solid hc]
  simp only [kept, Draft.put_put]

/-! ## Entries -/

theorem noted_apply (e : Entry) : (s.apply e).draft.noted Warning.isUnknown =
    s.draft.noted Warning.isUnknown ++ e.unknowns := by
  cases e with
  | kind value =>
    simp only [apply, setKind, Entry.unknowns, List.append_nil]
    split
    · rfl
    · next kind _ =>
      dsimp only
      split
      · exact (Draft.noted_warn_of_neg _ rfl).trans (s.noted_discardFor kind)
      · exact s.noted_discardFor kind
  | color value =>
    simp only [apply, setColor, Entry.unknowns, List.append_nil]
    split
    · rfl
    · split
      · rfl
      · exact Draft.noted_put _ _ _ rfl
  | opacity value =>
    simp only [apply, setOpacity, Entry.unknowns, List.append_nil]
    split
    · exact Draft.noted_put _ _ _ rfl
    · rfl
  | image value => exact (s.noted_setImage value).trans (List.append_nil _).symm
  | unknownKey key => exact Draft.noted_warn_of_pos _ rfl
  | unrecognized text => exact Draft.noted_warn_of_pos _ rfl

/-- An entry that is not known has that one warning. -/
theorem apply_of_unknowns {e : Entry} (h : e.unknowns ≠ []) :
    ∃ w, Warning.isUnknown w ∧ s.apply e = s.warn w := by
  cases e with
  | unknownKey key => exact ⟨.unknownKey key, rfl, rfl⟩
  | unrecognized text => exact ⟨.unrecognized text, rfl, rfl⟩
  | _ => exact absurd rfl h

/-- A token that is not known has that one warning and changes nothing else. -/
theorem notedAlone_step (t : Token) :
    view.NotedAlone Warning.isUnknown warn s (s.step t) := by
  have single (e : Entry) (he : e ∈ [Entry.ofToken t]) (_ : e.unknowns ≠ []) :
      [Entry.ofToken t] = [e] := by rw [List.mem_singleton.1 he]
  exact View.notedAlone_foldl (g := apply) noted_apply single fun _ hu => s.apply_of_unknowns hu

theorem outcome_apply (e : Entry) : Outcome view Warning.isUnknown (·.apply e) s := by
  cases e with
  | kind value =>
    cases h : Kind.ofName? (lower (trim value)) with
    | none =>
      have refused : s.setKind value = s.error (.invalidKind value) := by rw [setKind, h]
      exact .refused_of_eq _ refused rfl rfl
    | some kind => exact .settled (s.errors_setKind h) (s.setKind_setKind h)
  | color value =>
    cases hk : s.decision.any (·.kind == .image) with
    | true => exact .refused_of_eq _ (s.setColor_of_image hk value) rfl rfl
    | false =>
      cases hc : Color.ofText? value "bg" with
      | none => exact .refused_of_eq _ (s.setColor_of_unreadable hk hc) rfl rfl
      | some c =>
        refine .settled ?_ (s.setColor_setColor hk hc)
        show (s.setColor value).draft.errors = s.draft.errors
        rw [s.setColor_of_color hk hc, Draft.errors_put]
  | opacity value =>
    cases h : Fragment.ofPercent? value with
    | none =>
      have refused : s.setOpacity value =
          ({ s with opacitySeen := true } : State).error (.invalidOpacity value) := by
        rw [setOpacity, h]
      exact .refused_of_eq _ refused rfl rfl
    | some f =>
      refine .settled ?_ ?_
      · simp [view, apply, setOpacity, h]
      · simp [apply, setOpacity, h, Draft.put_put]
  | image value =>
    cases hr : Image.ofText? value with
    | none => exact .refused_of_eq _ (s.setImage_of_unreadable hr) rfl rfl
    | some r =>
      by_cases hd : s.decision = some ⟨.solid, true⟩
      · exact .refused_of_eq _ (s.setImage_of_solid hr hd) rfl rfl
      · refine .taken (s.held_setImage hr hd).2.2.2 ?_
        show view.Silent (s.setImage value) ((s.setImage value).setImage value)
        rw [s.setImage_setImage hr hd]
        exact ⟨rfl, rfl⟩
  | unknownKey key => exact .unread (.unknownKey key) rfl rfl
  | unrecognized text => exact .unread (.unrecognized text) rfl rfl

theorem outcome_step (t : Token) : Outcome view Warning.isUnknown (·.step t) s :=
  s.outcome_apply (Entry.ofToken t)

/-- An entry that is given again leaves every concern as it is; only an image moves in the order. -/
theorem get?_apply_apply (e : Entry) (k : Concern) :
    ((s.apply e).apply e).draft.classes.get? k = (s.apply e).draft.classes.get? k := by
  cases e with
  | kind value =>
    cases h : Kind.ofName? (lower (trim value)) with
    | none => simp only [apply, setKind, h, error, Draft.classes_error]
    | some kind => exact congrArg (·.draft.classes.get? k) (s.setKind_setKind h)
  | color value =>
    simp only [apply]
    cases hk : s.decision.any (·.kind == .image) with
    | true =>
      rw [s.setColor_of_image hk, setColor_of_image (s.error _) hk]
      rfl
    | false =>
      cases hc : Color.ofText? value "bg" with
      | none =>
        rw [s.setColor_of_unreadable hk hc, setColor_of_unreadable (s.error _) hk hc]
        rfl
      | some c => rw [s.setColor_setColor hk hc]
  | opacity value =>
    cases h : Fragment.ofPercent? value with
    | none => simp only [apply, setOpacity, h, error, Draft.classes_error]
    | some f => simp only [apply, setOpacity, h, Draft.put_put]
  | image value =>
    simp only [apply]
    cases hr : Image.ofText? value with
    | none =>
      rw [s.setImage_of_unreadable hr, setImage_of_unreadable (s.error _) hr]
      rfl
    | some r =>
      by_cases hd : s.decision = some ⟨.solid, true⟩
      · rw [s.setImage_of_solid hr hd, setImage_of_solid (s.error _) hr hd]
        rfl
      · obtain ⟨-, -, held, -⟩ := s.held_setImage hr hd
        rw [s.setImage_setImage hr hd, ClassMap.get?_set]
        split
        · next h => rw [h, held]
        · rfl
  | unknownKey key => rfl
  | unrecognized text => rfl

theorem get?_step_step (t : Token) (k : Concern) :
    ((s.step t).step t).draft.classes.get? k = (s.step t).draft.classes.get? k :=
  s.get?_apply_apply (Entry.ofToken t) k

end State

end Inspector.Fill
