import Inspector.Proofs.Fill.Complete
import Inspector.Proofs.Fill.Keys
import Inspector.Proofs.Observation
import Inspector.Proofs.Opacity

/-!
# The opacity of a fill

The last valid opacity among the tokens of a fill is the opacity that it holds in the end; no other
token changes it, and one that is refused leaves it as it was. An opacity is missing exactly if no
token gives one, be it valid or not.

    (run ts).draft.classes.get? .opacity = the class of lastOpacity ts              (last_opacity_run)
    (run ts).finish.draft.classes.get? .opacity = that class, or bg-opacity-100      (opacity_finish)
    ts ≠ [] → ShowsLast ts (reading ts)                                           (showsLast_reading)
-/

namespace Inspector.Fill

open Text

/-! ## What a token gives -/

/-- The opacity that an entry gives, be it valid or not. -/
def Entry.opacity? : Entry → Option Text
  | .opacity value => some value
  | _ => none

theorem Entry.opacity?_ofBare (text : Text) : (ofBare text).opacity? = none := by
  unfold ofBare
  split_ifs
  · rfl
  · rfl
  · split <;> rfl

theorem Entry.opacity?_ofToken (t : Token) : (ofToken t).opacity? = t.opacity? := by
  cases t with
  | bare text => exact opacity?_ofBare text
  | pair key value =>
    simp only [ofToken, Token.opacity?]
    by_cases h : lower key = "opacity"
    · rw [h]
      rfl
    · unfold ofPair
      rw [if_neg h, if_neg h]
      split_ifs <;> rfl

/-! ## Runs -/

namespace State

variable {s s' : State}

/-- A change by anything but an opacity leaves the opacity as it was. -/
theorem Change.opacity_kept {e : Entry} (hc : s.Change e s') (h : e.opacity? = none) :
    s'.draft.classes.get? .opacity = s.draft.classes.get? .opacity := by
  cases hc with
  | refused _ | unread _ | solidKind _ => rfl
  | opacity _ => cases h
  | color _ _ => simp [ClassMap.get?_set]
  | imageKind => simp [ClassMap.get?_erase]
  | solidOverImage _ => simp [ClassMap.get?_eraseAll, presentation]
  | firstImage _ _ | nextImage _ _ => exact get?_opacity_withImage _ _ _
  | imageOverColor _ _ =>
    refine (get?_opacity_withImage _ _ _).trans ?_
    simp [ClassMap.get?_erase]

/-- The classes of an opacity. -/
def shown (f : Text) : List Text := ["bg-opacity-" ++ f]

theorem opacity_apply (s : State) (e : Entry) : (s.apply e).draft.classes.get? .opacity =
    ((e.opacity?.bind Fragment.ofPercent?).map shown).or (s.draft.classes.get? .opacity) := by
  cases h : e.opacity? with
  | none => exact (s.change_apply e).opacity_kept h
  | some value =>
    cases e with
    | opacity value' =>
      obtain rfl := Option.some.inj h
      simp only [apply, setOpacity, Option.bind_some]
      cases Fragment.ofPercent? value' with
      | none => rfl
      | some f => simp [ClassMap.get?_set, shown]
    | _ => cases h

theorem opacitySeen_setKind (s : State) (value : Text) :
    (s.setKind value).opacitySeen = s.opacitySeen := by
  have discarded (kind : Kind) : (s.discardFor kind).opacitySeen = s.opacitySeen := by
    cases kind with
    | image => rfl
    | solid =>
      unfold discardFor
      dsimp only
      split <;> rfl
  unfold setKind
  split
  · rfl
  · next kind _ =>
    dsimp only
    split
    · exact discarded kind
    · exact discarded kind

theorem opacitySeen_setColor (s : State) (value : Text) :
    (s.setColor value).opacitySeen = s.opacitySeen := by
  unfold setColor
  split
  · rfl
  · split <;> rfl

theorem opacitySeen_setImage (s : State) (value : Text) :
    (s.setImage value).opacitySeen = s.opacitySeen := by
  have turned : s.turnIntoImage.opacitySeen = s.opacitySeen := by
    unfold turnIntoImage
    split <;> rfl
  have seeded (s : State) : s.seed.opacitySeen = s.opacitySeen := by
    unfold seed
    split <;> rfl
  unfold setImage
  split
  · rfl
  · split
    · rfl
    · exact (seeded _).trans turned

theorem opacitySeen_apply (s : State) (e : Entry) :
    (s.apply e).opacitySeen = (s.opacitySeen || e.opacity?.isSome) := by
  cases e with
  | kind value => exact (s.opacitySeen_setKind value).trans (Bool.or_false _).symm
  | color value => exact (s.opacitySeen_setColor value).trans (Bool.or_false _).symm
  | image value => exact (s.opacitySeen_setImage value).trans (Bool.or_false _).symm
  | unknownKey key => exact (Bool.or_false _).symm
  | unrecognized text => exact (Bool.or_false _).symm
  | opacity value =>
    simp only [apply, setOpacity, Entry.opacity?, Option.isSome_some, Bool.or_true]
    split <;> rfl

end State

theorem last_opacity_run (ts : List Token) : (run ts).draft.classes.get? .opacity =
    (lastOpacity ts).map State.shown := by
  have last := latest?_foldl (fun s : State => s.draft.classes.get? .opacity) (f := State.step)
    (g := fun t => (t.opacity?.bind Fragment.ofPercent?).map State.shown)
    (fun s t => by rw [State.step, State.opacity_apply, Entry.opacity?_ofToken]) ts {}
  rw [lastOpacity, List.filterMap_filterMap, ← List.getLast?_map, List.map_filterMap]
  exact last.trans Option.or_none

theorem opacitySeen_run (ts : List Token) :
    (run ts).opacitySeen = !(ts.filterMap Token.opacity?).isEmpty := by
  have seen := seen_foldl State.opacitySeen (f := State.step) (p := fun t => t.opacity?.isSome)
    (fun s t => by rw [State.step, State.opacitySeen_apply, Entry.opacity?_ofToken]) ts {}
  rw [← any_eq_not_isEmpty_filterMap (fun _ => rfl)]
  exact seen.trans (Bool.false_or _)

/-! ## The end -/

/-- A fill ends with the last valid opacity, or with the full one. -/
theorem opacity_finish (ts : List Token) : (run ts).finish.draft.classes.get? .opacity =
    some (State.shown ((lastOpacity ts).getD "100")) := by
  have last := last_opacity_run ts
  rw [State.classes_finish, Draft.contains_eq, ClassMap.contains]
  cases h : lastOpacity ts with
  | none =>
    rw [h, Option.map_none] at last
    rw [last, Option.isSome_none, if_neg Bool.false_ne_true, ClassMap.get?_insert, if_pos rfl]
    rfl
  | some f =>
    rw [h, Option.map_some] at last
    rw [last, Option.isSome_some, if_pos rfl, last]
    rfl

/-! ## Reports -/

def opacityMissing : Text := "fill: missing fill opacity; defaults to 100"

theorem line_missingOpacity :
    Property.fill.name ++ ": " ++ Error.missingOpacity.message = opacityMissing := by
  decide +kernel

theorem missingOpacity_mem_finish_iff (ts : List Token) :
    Error.missingOpacity ∈ (run ts).finish.draft.errors ↔ ∀ t ∈ ts, t.opacity? = none := by
  have unseen : (run ts).opacitySeen = false ↔ ∀ t ∈ ts, t.opacity? = none := by
    rw [opacitySeen_run, Bool.not_eq_false', List.isEmpty_iff, List.filterMap_eq_nil_iff]
  have late : Error.missingOpacity ∉ (run ts).draft.errors := fun h =>
    absurd (run_not_missing ts _ h) (by decide)
  rw [State.mem_errors_finish_iff, ← unseen]
  simp [late]

/-- What a report says of the opacity that the tokens of a fill give. -/
structure ShowsLast (ts : List Token) (report : Report) : Prop where
  opacity : (run ts).finish.draft.classes.get? .opacity =
    some ["bg-opacity-".toList ++ (lastOpacity ts).getD "100"]
  emitted : "bg-opacity-".toList ++ (lastOpacity ts).getD "100" ∈ report.classes
  noOpacity : opacityMissing ∈ report.errors ↔ ∀ t ∈ ts, t.opacity? = none

theorem reading_of_ne_nil {ts : List Token} (written : ts ≠ []) :
    reading ts = (run ts).finish.draft.report .fill Error.message Warning.message := by
  cases ts with
  | nil => exact absurd rfl written
  | cons t ts => rfl

theorem showsLast_reading {ts : List Token} (written : ts ≠ []) : ShowsLast ts (reading ts) := by
  have missing : Error.isMissing .missingOpacity := rfl
  refine ⟨opacity_finish ts, ?_, ?_⟩
  · rw [reading_of_ne_nil written]
    have shaped := State.shaped_finish (shaped_run ts)
    exact shaped.mem_classes_iff.2 ⟨.opacity, _, opacity_finish ts, List.mem_singleton_self _⟩
  · rw [reading_of_ne_nil written, ← line_missingOpacity, Draft.mem_errors_report_iff]
    simp only [Error.message_eq_iff_of_isMissing missing, exists_eq_right]
    exact missingOpacity_mem_finish_iff ts

end Inspector.Fill
