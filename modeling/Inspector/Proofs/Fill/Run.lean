import Inspector.Fill
import Inspector.Proofs.Draft

/-!
# What an entry does to a fill

Every entry of a fill is refused with one error, passed over with a warning, or taken; taken, it
sets the opacity, the color, the type or the image. The relation `Change` lists these cases with
the state they lead to, warnings aside, so that an invariant of fills is proved case by case. The
end of a fill adds the errors about what is missing and the default opacity.

    Change s e (s.apply e)                                                         (change_apply)
    err ∈ (run ts).draft.errors → err.isMissing = false                         (run_not_missing)
    err ∈ s.finish.draft.errors ↔ err ∈ s.draft.errors ∨ …                (mem_errors_finish_iff)
-/

namespace Inspector.Fill

open Text

/-- The errors about a value that is not there, which only the end of a fill finds. -/
def Error.isMissing : Error → Bool
  | .missingKind | .missingColor | .missingImage | .missingOpacity => true
  | _ => false

/-- The entries that may decide the type of a fill: a type, a color, an image. -/
def Entry.decides : Entry → Bool
  | .kind _ | .color _ | .image _ => true
  | _ => false

namespace State

def kind? (s : State) : Option Kind := s.decision.map Decision.kind

/-- The classes `m` with an image, presented if none was before. -/
def withImage (s : State) (m : ClassMap Concern) (reference : Text) : ClassMap Concern :=
  let m := m.set .url ["bg-[url(" ++ reference ++ ")]"]
  if s.seeded then m else presentation.foldl (fun m p => m.insert p.1 p.2) m

/-- What the entry `e` makes of the state `s`, up to the warnings. -/
inductive Change (s : State) : Entry → State → Prop
  | refused {e : Entry} {err : Error} {ws : List Warning} {seen : Bool}
      (h : err.isMissing = false) :
      Change s e ⟨⟨s.draft.classes, s.draft.errors ++ [err], ws⟩, s.decision, seen, s.seeded⟩
  | unread {e : Entry} {ws : List Warning} (h : e.decides = false) :
      Change s e ⟨⟨s.draft.classes, s.draft.errors, ws⟩, s.decision, s.opacitySeen, s.seeded⟩
  | opacity {value f : Text} {ws : List Warning} (h : Fragment.ofPercent? value = some f) :
      Change s (.opacity value)
        ⟨⟨s.draft.classes.set .opacity ["bg-opacity-" ++ f], s.draft.errors, ws⟩, s.decision,
          true, s.seeded⟩
  | color {value : Text} {c : Color} {ws : List Warning} (hk : s.kind? ≠ some .image)
      (h : Color.ofText? value "bg" = some c) :
      Change s (.color value)
        ⟨⟨s.draft.classes.set .color [c.classFor "bg"], s.draft.errors, ws⟩,
          s.decision.or (some ⟨.solid, false⟩), s.opacitySeen, s.seeded⟩
  | imageKind {value : Text} {ws : List Warning} :
      Change s (.kind value)
        ⟨⟨s.draft.classes.erase .color, s.draft.errors, ws⟩, some ⟨.image, true⟩, s.opacitySeen,
          s.seeded⟩
  | solidKind {value : Text} {ws : List Warning} (h : s.draft.contains .url = false) :
      Change s (.kind value)
        ⟨⟨s.draft.classes, s.draft.errors, ws⟩, some ⟨.solid, true⟩, s.opacitySeen, s.seeded⟩
  | solidOverImage {value : Text} {ws : List Warning} (h : s.draft.contains .url = true) :
      Change s (.kind value)
        ⟨⟨s.draft.classes.eraseAll (.url :: presentation.map (·.1)), s.draft.errors, ws⟩,
          some ⟨.solid, true⟩, s.opacitySeen, false⟩
  | firstImage {value r : Text} {ws : List Warning} (hd : s.decision = none)
      (h : Image.ofText? value = some r) :
      Change s (.image value)
        ⟨⟨s.withImage s.draft.classes r, s.draft.errors, ws⟩, some ⟨.image, false⟩,
          s.opacitySeen, true⟩
  | imageOverColor {value r : Text} {ws : List Warning}
      (hd : s.decision = some ⟨.solid, false⟩) (h : Image.ofText? value = some r) :
      Change s (.image value)
        ⟨⟨s.withImage (s.draft.classes.erase .color) r, s.draft.errors, ws⟩,
          some ⟨.image, false⟩, s.opacitySeen, true⟩
  | nextImage {value r : Text} {ws : List Warning} (hk : s.kind? = some .image)
      (h : Image.ofText? value = some r) :
      Change s (.image value)
        ⟨⟨s.withImage s.draft.classes r, s.draft.errors, ws⟩, s.decision, s.opacitySeen, true⟩

/-! ## Every entry is one of these changes -/

variable (s : State) (value : Text)

theorem warn_if_eq (s : State) (b : Bool) (w : Warning) :
    ∃ ws, (if b then s.warn w else s) =
      ⟨⟨s.draft.classes, s.draft.errors, ws⟩, s.decision, s.opacitySeen, s.seeded⟩ := by
  cases b <;> exact ⟨_, rfl⟩

theorem discardFor_image_eq :
    ∃ ws, s.discardFor .image =
      ⟨⟨s.draft.classes.erase .color, s.draft.errors, ws⟩, s.decision, s.opacitySeen,
        s.seeded⟩ := by
  obtain ⟨ws, h⟩ := s.draft.discard_eq .color .colorDiscarded
  exact ⟨ws, by rw [discardFor, h]⟩

theorem change_setKind : Change s (.kind value) (s.setKind value) := by
  unfold setKind
  split
  · exact .refused rfl
  · next kind _ =>
    -- The warning about a changed type is all that the inner test decides.
    obtain ⟨ws, h⟩ := warn_if_eq (s.discardFor kind)
      ((s.discardFor kind).decision.any (·.kind != kind)) (.kindChanged kind)
    dsimp only
    rw [h]
    cases kind with
    | image =>
      obtain ⟨ws', hd⟩ := s.discardFor_image_eq
      rw [hd]
      exact .imageKind
    | solid =>
      by_cases hu : s.draft.contains .url
      · rw [discardFor, if_pos hu]
        exact .solidOverImage hu
      · rw [discardFor, if_neg hu]
        exact .solidKind (by simpa using hu)

theorem change_setColor : Change s (.color value) (s.setColor value) := by
  unfold setColor
  split
  · exact .refused rfl
  · next hk =>
    have hk' : s.kind? ≠ some .image := by
      intro h
      obtain ⟨d, hd, hdk⟩ := Option.map_eq_some_iff.1 h
      simp [hd, hdk] at hk
    split
    · exact .refused rfl
    · next c hc =>
      obtain ⟨ws, h⟩ := s.draft.put_eq .color [c.classFor "bg"] (.superseded .color)
      rw [h]
      exact .color hk' hc

theorem change_setOpacity : Change s (.opacity value) (s.setOpacity value) := by
  unfold setOpacity
  split
  · next f hf =>
    obtain ⟨ws, h⟩ := s.draft.put_eq .opacity ["bg-opacity-" ++ f] (.superseded .opacity)
    dsimp only
    rw [h]
    exact .opacity hf
  · exact .refused rfl

theorem seed_put_eq (s : State) (r : Text) :
    ∃ ws, ({ s with draft := s.draft.put .url ["bg-[url(" ++ r ++ ")]"] (.superseded .image) } :
        State).seed =
      ⟨⟨s.withImage s.draft.classes r, s.draft.errors, ws⟩, s.decision, s.opacitySeen, true⟩ := by
  obtain ⟨ws, h⟩ := s.draft.put_eq .url ["bg-[url(" ++ r ++ ")]"] (.superseded .image)
  rw [h]
  cases hs : s.seeded <;> exact ⟨ws, by simp [seed, withImage, presentation, hs] <;> rfl⟩

theorem change_setImage : Change s (.image value) (s.setImage value) := by
  unfold setImage
  split
  · exact .refused rfl
  · next r hr =>
    split
    · exact .refused rfl
    · next hd =>
      obtain ⟨ws, h⟩ := seed_put_eq s.turnIntoImage r
      dsimp only
      rw [h]
      match hk : s.decision with
      | none =>
        rw [turnIntoImage, hk]
        exact .firstImage hk hr
      | some ⟨.solid, true⟩ => exact absurd hk hd
      | some ⟨.solid, false⟩ =>
        rw [turnIntoImage, hk]
        exact .imageOverColor hk hr
      | some ⟨.image, _⟩ =>
        have keep : s.turnIntoImage = s := by rw [turnIntoImage, hk]
        rw [keep]
        exact .nextImage (by simp [kind?, hk]) hr

theorem change_apply (e : Entry) : Change s e (s.apply e) := by
  cases e with
  | kind value => exact s.change_setKind value
  | color value => exact s.change_setColor value
  | opacity value => exact s.change_setOpacity value
  | image value => exact s.change_setImage value
  | unknownKey key => exact .unread rfl
  | unrecognized text => exact .unread rfl

end State

/-! ## Runs -/

/-- An invariant that every change keeps holds after every run. -/
theorem run_invariant {P : State → Prop} (init : P {})
    (step : ∀ {s s' : State} {e : Entry}, P s → s.Change e s' → P s') (ts : List Token) :
    P (run ts) :=
  List.foldlRecOn ts State.step init fun s h t _ => step h (s.change_apply (Entry.ofToken t))

theorem run_concat (ts : List Token) (t : Token) : run (ts ++ [t]) = (run ts).step t := by
  simp [run, List.foldl_append]

theorem run_not_missing (ts : List Token) :
    ∀ err ∈ (run ts).draft.errors, err.isMissing = false := by
  refine run_invariant (P := fun s => ∀ err ∈ s.draft.errors, err.isMissing = false) (by simp)
    (fun {s s' e} h hc => ?_) ts
  cases hc with
  | refused hm =>
    intro err herr
    rcases List.mem_append.1 herr with herr | herr
    · exact h err herr
    · rw [List.mem_singleton.1 herr]
      exact hm
  | _ => exact h

/-! ## The end -/

namespace State

variable (s : State)

@[simp] theorem classes_checkKind : s.checkKind.draft.classes = s.draft.classes := by
  unfold checkKind
  split
  · rfl
  · split <;> rfl

@[simp] theorem decision_checkKind : s.checkKind.decision = s.decision := by
  unfold checkKind
  split
  · rfl
  · split <;> rfl

@[simp] theorem opacitySeen_checkKind : s.checkKind.opacitySeen = s.opacitySeen := by
  unfold checkKind
  split
  · rfl
  · split <;> rfl

theorem mem_errors_checkKind_iff {err : Error} : err ∈ s.checkKind.draft.errors ↔
    err ∈ s.draft.errors ∨ err = .missingKind ∧ s.decision = none := by
  unfold checkKind
  split
  · next h => simp [h, error]
  · next h => split <;> simp [h, warn]

@[simp] theorem classes_checkValue : s.checkValue.draft.classes = s.draft.classes := by
  unfold checkValue
  split
  · split <;> rfl
  · split <;> rfl
  · rfl

@[simp] theorem opacitySeen_checkValue : s.checkValue.opacitySeen = s.opacitySeen := by
  unfold checkValue
  split
  · split <;> rfl
  · split <;> rfl
  · rfl

theorem mem_errors_checkValue_iff {err : Error} : err ∈ s.checkValue.draft.errors ↔
    err ∈ s.draft.errors ∨
      err = .missingColor ∧ s.kind? = some .solid ∧ ¬ s.draft.contains .color ∨
      err = .missingImage ∧ s.kind? = some .image ∧ ¬ s.draft.contains .url := by
  unfold checkValue kind?
  split
  · next h => split <;> simp_all [error]
  · next h => split <;> simp_all [error]
  · next h => simp [h]

theorem classes_checkOpacity : s.checkOpacity.draft.classes =
    if s.draft.contains .opacity then s.draft.classes
    else s.draft.classes.insert .opacity "bg-opacity-100" := by
  unfold checkOpacity
  cases s.opacitySeen <;> by_cases h : s.draft.contains .opacity <;> simp_all [error]

theorem mem_errors_checkOpacity_iff {err : Error} : err ∈ s.checkOpacity.draft.errors ↔
    err ∈ s.draft.errors ∨ err = .missingOpacity ∧ s.opacitySeen = false := by
  unfold checkOpacity
  cases s.opacitySeen <;> by_cases h : s.draft.contains .opacity <;> simp_all [error]

/-- The end of a fill adds the default opacity to its classes, if need be. -/
theorem classes_finish : s.finish.draft.classes =
    if s.draft.contains .opacity then s.draft.classes
    else s.draft.classes.insert .opacity "bg-opacity-100" := by
  rw [finish, classes_checkOpacity, Draft.contains_eq, classes_checkValue, classes_checkKind]
  rfl

/-- The end of a fill adds the errors about what is missing. -/
theorem mem_errors_finish_iff {err : Error} : err ∈ s.finish.draft.errors ↔
    err ∈ s.draft.errors ∨
      err = .missingKind ∧ s.decision = none ∨
      err = .missingColor ∧ s.kind? = some .solid ∧ ¬ s.draft.contains .color ∨
      err = .missingImage ∧ s.kind? = some .image ∧ ¬ s.draft.contains .url ∨
      err = .missingOpacity ∧ s.opacitySeen = false := by
  rw [finish, mem_errors_checkOpacity_iff, mem_errors_checkValue_iff, mem_errors_checkKind_iff]
  simp only [kind?, Draft.contains_eq, classes_checkKind, decision_checkKind,
    opacitySeen_checkKind, opacitySeen_checkValue, or_assoc]

/-- A fill ends without an error exactly if none was found on the way and its type, the value that
the type demands and an opacity were given. -/
theorem errors_finish_eq_nil_iff : s.finish.draft.errors = [] ↔
    s.draft.errors = [] ∧ s.decision ≠ none ∧
      (s.kind? = some .solid → s.draft.contains .color) ∧
      (s.kind? = some .image → s.draft.contains .url) ∧ s.opacitySeen := by
  simp only [List.eq_nil_iff_forall_not_mem, mem_errors_finish_iff]
  constructor
  · intro h
    refine ⟨fun e he => h e (.inl he), fun hd => h .missingKind (by simp [hd]), fun hk => ?_,
      fun hk => ?_, ?_⟩
    · by_contra hc
      exact h .missingColor (.inr (.inr (.inl ⟨rfl, hk, hc⟩)))
    · by_contra hu
      exact h .missingImage (.inr (.inr (.inr (.inl ⟨rfl, hk, hu⟩))))
    · by_contra ho
      exact h .missingOpacity (.inr (.inr (.inr (.inr ⟨rfl, by simpa using ho⟩))))
  · rintro ⟨he, hd, hc, hu, ho⟩ e (h | ⟨-, h⟩ | ⟨-, hk, h⟩ | ⟨-, hk, h⟩ | ⟨-, h⟩)
    · exact he e h
    · exact hd h
    · exact h (hc hk)
    · exact h (hu hk)
    · simp [h] at ho

end State

/-! ## Messages -/

/-- The message of a missing value is that of no other error. -/
theorem Error.message_eq_iff_of_isMissing {err : Error} (h : err.isMissing) (e : Error) :
    e.message = err.message ↔ e = err := by
  unfold message
  cases err with
  | missingKind => cases e <;> simp
  | missingColor => cases e <;> simp
  | missingImage => cases e <;> simp
  | missingOpacity => cases e <;> simp
  | _ => simp [isMissing] at h

/-- A missing value is reported exactly if there are tokens and the end of their run finds it. -/
theorem mem_errors_read_iff (input : Option Text) {err : Error} (h : err.isMissing) :
    Property.fill.name ++ ": " ++ err.message ∈ (read input).errors ↔
      tokens input ≠ [] ∧ err ∈ (run (tokens input)).finish.draft.errors := by
  unfold read
  split
  · next ht => simp [ht]
  · next ht =>
    rw [Draft.mem_errors_report_iff]
    simp only [Error.message_eq_iff_of_isMissing h, exists_eq_right]
    constructor
    · intro he
      exact ⟨fun hnil => ht hnil, he⟩
    · rintro ⟨-, he⟩
      exact he

end Inspector.Fill
