import Inspector.Proofs.Appearance.LastWrite
import Inspector.Proofs.Appearance.Vocabulary
import Inspector.Proofs.Opacity

/-!
# The opacity and the visibility of an appearance

The last valid opacity of an appearance gives its one opacity class, and the last valid visibility
decides whether it is invisible. A value that is refused leaves the earlier ones as they are, and it
is not missing: missing is what no token gives.

    (entries ts).filterMap Entry.opacity? = ts.filterMap Token.opacity?           (opacities_entries)
    (run ts).draft.classes.get? .opacity = the class of lastOpacity ts              (opacity_run)
    (run ts).draft.classes.get? .visibility = that of lastVisibility ts          (visibility_run)
-/

namespace Inspector.Appearance

open Text

/-! ## What a token gives -/

/-- The visibility that a token gives, as a word on its own or by key, be it valid or not. -/
def visibility? : Token → Option Text
  | .bare text =>
    if lower text = "visible" ∨ lower text = "hidden" ∨ lower text = "invisible" then some text
    else none
  | .pair key value => if lower key = "visible" ∨ lower key = "visibility" then some value else none

/-- Whether the last valid visibility among the tokens shows the element. -/
def lastVisibility (ts : List Token) : Option Bool :=
  ((ts.filterMap visibility?).filterMap Entry.isVisible?).getLast?

namespace Entry

/-- The opacity that an entry gives, be it valid or not. -/
def opacity? : Entry → Option Text
  | .opacity value => some value
  | _ => none

/-- The visibility that an entry gives, which is none if it is not valid. -/
def visibility? : Entry → Option (Option Bool)
  | .visible => some (some true)
  | .hidden => some (some false)
  | .unclear _ => some none
  | _ => none

theorem isOpacity_eq (e : Entry) : e.isOpacity = e.opacity?.isSome := by cases e <;> rfl

theorem isVisibility_eq (e : Entry) : e.isVisibility = e.visibility?.isSome := by cases e <;> rfl

theorem opacity?_eq_none {e : Entry} (h : e.family ≠ .opacity) : e.opacity? = none := by
  cases e with
  | opacity => exact absurd rfl h
  | _ => rfl

theorem visibility?_eq_none {e : Entry} (h : e.family ≠ .visibility) : e.visibility? = none := by
  cases e with
  | visible | hidden | unclear => exact absurd rfl h
  | _ => rfl

end Entry

theorem family_eq_opacity_iff (t : Token) : family t = .opacity ↔ t.opacity?.isSome := by
  cases t with
  | bare text =>
    simp only [family, wordFamily, Token.opacity?]
    split_ifs <;> simp
  | pair key value =>
    simp only [family, Token.opacity?]
    by_cases h : lower key = "opacity"
    · rw [h]
      exact iff_of_true rfl rfl
    · simp only [keyFamily, if_neg h]
      split_ifs <;> simp

theorem family_eq_visibility_iff (t : Token) :
    family t = .visibility ↔ (visibility? t).isSome := by
  cases t with
  | bare text =>
    simp only [family, wordFamily, visibility?]
    split_ifs <;> simp
  | pair key value =>
    simp only [family, keyFamily, visibility?]
    split_ifs <;> simp

/-- A word that says the visibility on its own does so as a value, too. -/
theorem visibility?_ofBare {text value : Text} (h : visibility? (.bare text) = some value) :
    (Entry.ofBare text).visibility? = some (Entry.isVisible? value) := by
  simp only [visibility?] at h
  split at h
  · next word =>
    obtain rfl := Option.some.inj h
    unfold Entry.ofBare Entry.isVisible?
    rw [← trim_lower]
    rcases word with word | word | word
    all_goals
      rw [word]
      rfl
  · cases h

theorem visibility?_ofVisibility (value : Text) :
    (Entry.ofVisibility value).visibility? = some (Entry.isVisible? value) := by
  unfold Entry.ofVisibility
  rcases Entry.isVisible? value with _ | (_ | _) <;> rfl

theorem visibilities_ofToken (t : Token) : (Entry.ofToken t).filterMap Entry.visibility? =
    ((visibility? t).map Entry.isVisible?).toList := by
  cases h : visibility? t with
  | none =>
    refine List.filterMap_eq_nil_iff.2 fun e he => Entry.visibility?_eq_none fun hf => ?_
    rw [family_of_mem he, family_eq_visibility_iff, h] at hf
    cases hf
  | some value =>
    cases t with
    | bare text =>
      rw [Entry.ofToken, List.filterMap_cons_some (visibility?_ofBare h)]
      rfl
    | pair key value' =>
      simp only [visibility?] at h
      split at h
      · next hk =>
        obtain rfl := Option.some.inj h
        rw [Entry.ofToken, Entry.ofPair, if_pos hk,
          List.filterMap_cons_some (visibility?_ofVisibility value')]
        rfl
      · cases h

theorem opacities_entries (ts : List Token) :
    (entries ts).filterMap Entry.opacity? = ts.filterMap Token.opacity? := by
  refine Token.filterMap_opacity (fun {t} h e he => Entry.opacity?_eq_none fun hf => ?_)
    (fun hk => by rw [Entry.ofToken, hk]; rfl) ts
  rw [family_of_mem he, family_eq_opacity_iff, h] at hf
  cases hf

theorem visibilities_entries (ts : List Token) : (entries ts).filterMap Entry.visibility? =
    (ts.filterMap visibility?).map Entry.isVisible? := by
  rw [entries, List.filterMap_flatMap, List.map_filterMap, List.filterMap_eq_flatMap_toList]
  exact congrArg (ts.flatMap ·) (funext visibilities_ofToken)

/-! ## Runs -/

namespace State

variable (s : State)

theorem opacity_apply (e : Entry) : (s.apply e).draft.classes.get? .opacity =
    ((e.opacity?.bind Fragment.ofPercent?).map fun f => ["opacity-".toList ++ f]).or
      (s.draft.classes.get? .opacity) := by
  cases e with
  | opacity value =>
    simp only [apply, setOpacity, Entry.opacity?, Option.bind_some]
    cases Fragment.ofPercent? value with
    | none => rfl
    | some f => simp [ClassMap.get?_set]
  | uniform value =>
    simp only [apply, setUniform, Entry.opacity?]
    cases radiusFragment? value with
    | none => rfl
    | some f => simp [ClassMap.get?_set, ClassMap.get?_eraseAll]
  | corner k value =>
    simp only [apply, setCorner, Entry.opacity?]
    cases radiusFragment? value with
    | none => rfl
    | some f => simp [ClassMap.get?_set, ClassMap.get?_erase]
  | visible => exact ClassMap.get?_erase _ _ _
  | hidden => exact ClassMap.get?_insert _ _ _ _
  | _ => rfl

/-- What a visibility holds in the classes. -/
def shown (visible : Bool) : Option (List Text) := if visible then none else some ["invisible"]

theorem visibility_apply (e : Entry) : (s.apply e).draft.classes.get? .visibility =
    (e.visibility?.join.map shown).getD (s.draft.classes.get? .visibility) := by
  cases e with
  | opacity value =>
    simp only [apply, setOpacity, Entry.visibility?]
    cases Fragment.ofPercent? value with
    | none => rfl
    | some f => simp [ClassMap.get?_set]
  | uniform value =>
    simp only [apply, setUniform, Entry.visibility?]
    cases radiusFragment? value with
    | none => rfl
    | some f => simp [ClassMap.get?_set, ClassMap.get?_eraseAll]
  | corner k value =>
    simp only [apply, setCorner, Entry.visibility?]
    cases radiusFragment? value with
    | none => rfl
    | some f => simp [ClassMap.get?_set, ClassMap.get?_erase]
  | visible => exact ClassMap.get?_erase_self _ _
  | hidden => exact ClassMap.get?_set_self _ _ _
  | _ => rfl

end State

theorem opacity_run (ts : List Token) : (run ts).draft.classes.get? .opacity =
    (lastOpacity ts).map fun f => ["opacity-".toList ++ f] := by
  have last := latest?_foldl (fun s : State => s.draft.classes.get? .opacity) State.opacity_apply
    (entries ts) {}
  rw [run_eq_foldl, lastOpacity, ← opacities_entries, List.filterMap_filterMap, ← List.getLast?_map,
    List.map_filterMap]
  exact last.trans (Option.or_none)

theorem visibility_run (ts : List Token) : (run ts).draft.classes.get? .visibility =
    ((lastVisibility ts).map State.shown).getD none := by
  have last := latest_foldl (fun s : State => s.draft.classes.get? .visibility)
    State.visibility_apply (entries ts) {}
  have valid : (ts.filterMap visibility?).filterMap Entry.isVisible? =
      (entries ts).filterMap fun e => e.visibility?.join := by
    have read : (ts.filterMap visibility?).filterMap Entry.isVisible? =
        ((ts.filterMap visibility?).map Entry.isVisible?).filterMap id := by
      rw [List.filterMap_map]
      rfl
    rw [read, ← visibilities_entries, List.filterMap_filterMap]
    rfl
  rw [run_eq_foldl, lastVisibility, valid, ← List.getLast?_map, List.map_filterMap]
  exact last

/-! ## The end -/

theorem opacity_finish (ts : List Token) : (run ts).finish.draft.classes.get? .opacity =
    some ["opacity-".toList ++ (lastOpacity ts).getD "100"] := by
  have last := opacity_run ts
  rw [State.classes_finish, Draft.contains_eq, ClassMap.contains]
  cases h : lastOpacity ts with
  | none =>
    rw [h, Option.map_none] at last
    rw [last, Option.isSome_none, if_neg Bool.false_ne_true, ClassMap.get?_insert, if_pos rfl]
    rfl
  | some f =>
    rw [h, Option.map_some] at last
    rw [last, Option.isSome_some, if_pos rfl, last]
    rfl

theorem visibility_finish (ts : List Token) : (run ts).finish.draft.classes.get? .visibility =
    ((lastVisibility ts).map State.shown).getD none := by
  rw [State.classes_finish]
  split
  · exact visibility_run ts
  · rw [ClassMap.get?_insert, if_neg (by decide : Concern.visibility ≠ .opacity)]
    exact visibility_run ts

/-! ## Classes -/

theorem eq_opacity_of_prefix {k : Concern} {c : Text} (hk : k.Spells c)
    (hc : "opacity-".toList.isPrefixOf c) : k = .opacity := by
  have begins : "opacity-".toList <+: c := List.isPrefixOf_iff_prefix.1 hc
  have other : ¬ BeginsWith ["rounded-"] c :=
    not_beginsWith_both (by decide : apart ["opacity-"] ["rounded-"])
      (.of_mem List.mem_cons_self begins)
  cases k with
  | opacity => rfl
  | visibility =>
    rw [show c = _ from hk] at begins
    exact absurd begins (by decide)
  | radius =>
    obtain ⟨_, f, _, rfl⟩ := hk
    exact absurd (.of_mem List.mem_cons_self ⟨f, rfl⟩) other
  | corner k =>
    obtain ⟨_, f, _, rfl⟩ := hk
    exact absurd (.of_mem List.mem_cons_self ⟨k.short ++ "-" ++ f, by simp⟩) other

theorem invisible_alone {k : Concern} (hk : k.Spells "invisible") : k = .visibility := by
  have other : ¬ BeginsWith ["opacity-", "rounded-"] "invisible" := by decide
  cases k with
  | visibility => rfl
  | opacity =>
    refine absurd ?_ other
    rcases hk with hk | ⟨_, f, _, hk⟩
    · exact absurd hk (by decide)
    · exact .of_mem (l := "opacity-") (by decide) ⟨f, hk.symm⟩
  | radius =>
    obtain ⟨_, f, _, hk⟩ := hk
    exact absurd (.of_mem (l := "rounded-") (by decide) ⟨f, hk.symm⟩) other
  | corner k =>
    obtain ⟨_, f, _, hk⟩ := hk
    refine absurd (.of_mem (l := "rounded-") (by decide) ⟨k.short ++ "-" ++ f, ?_⟩) other
    rw [hk]
    simp

theorem opacity_classes_finish (ts : List Token) :
    (run ts).finish.draft.classes.classes.filter ("opacity-".toList.isPrefixOf ·) =
      ["opacity-".toList ++ (lastOpacity ts).getD "100"] := by
  have sure (c : Text) (hc : Concern.opacity.Spells c) : "opacity-".toList.isPrefixOf c := by
    rw [List.isPrefixOf_iff_prefix]
    rcases hc with rfl | ⟨_, f, _, rfl⟩
    · exact ⟨"100".toList, rfl⟩
    · exact ⟨f, rfl⟩
  rw [(State.shaped_finish (shaped_run ts)).filter_classes_eq sure fun _ _ => eq_opacity_of_prefix,
    opacity_finish]
  rfl

theorem invisible_mem_finish (ts : List Token) :
    "invisible".toList ∈ (run ts).finish.draft.classes.classes ↔ lastVisibility ts = some false := by
  rw [(State.shaped_finish (shaped_run ts)).mem_classes_iff_contains
    (fun _ => invisible_alone) fun _ h => h, ClassMap.contains, visibility_finish]
  rcases lastVisibility ts with _ | (_ | _) <;> decide

/-! ## Errors -/

/-- The errors about a value that is not there, which only the end of an appearance finds. -/
def Error.isMissing : Error → Bool
  | .missingVisibility | .missingOpacity => true
  | _ => false

/-- The errors about the required values that were not seen. -/
def missing (visibility opacity : Bool) : List Error :=
  (if visibility then [] else [.missingVisibility]) ++ if opacity then [] else [.missingOpacity]

/-- The end of an appearance adds the errors about what is missing. -/
theorem State.errors_finish (s : State) : s.finish.draft.errors =
    s.draft.errors ++ missing s.visibilitySeen s.opacitySeen := by
  unfold finish
  cases hv : s.visibilitySeen <;> cases ho : s.opacitySeen <;>
    cases h : s.draft.classes.contains .opacity <;> simp [error, missing, hv, ho, h]

/-- No token reports a value as missing: that is left to the end. -/
theorem missing_run (ts : List Token) : ∀ e ∈ (run ts).draft.errors, e.isMissing = false := by
  rw [errors_run]
  intro err herr
  obtain ⟨e, -, he⟩ := List.mem_flatMap.1 herr
  cases e with
  | visible | hidden | unread => cases he
  | unclear => rw [List.mem_singleton.1 he]; rfl
  | opacity | uniform | corner =>
    simp only [Entry.errors] at he
    split at he
    · cases he
    · rw [List.mem_singleton.1 he]; rfl

theorem opacitySeen_eq (ts : List Token) :
    (run ts).opacitySeen = !(ts.filterMap Token.opacity?).isEmpty := by
  rw [opacitySeen_run, any_eq_not_isEmpty_filterMap Entry.isOpacity_eq, opacities_entries]

theorem visibilitySeen_eq (ts : List Token) :
    (run ts).visibilitySeen = !(ts.filterMap visibility?).isEmpty := by
  rw [visibilitySeen_run, any_eq_not_isEmpty_filterMap Entry.isVisibility_eq,
    visibilities_entries, List.isEmpty_map]

theorem head?_message_of_not_isMissing {e : Error} (h : e.isMissing = false) :
    e.message.head? ≠ some 'm' := by
  cases e with
  | missingVisibility | missingOpacity => cases h
  | _ => exact (by decide : some 'i' ≠ some 'm')

/-- A missing value has a message of its own. -/
theorem Error.message_eq_iff_of_isMissing {err : Error} (h : err.isMissing) (e : Error) :
    e.message = err.message ↔ e = err := by
  have complete {e : Error} (h : e.isMissing) : e ∈ [.missingVisibility, .missingOpacity] := by
    cases e with
    | missingVisibility | missingOpacity => decide
    | _ => cases h
  exact Draft.message_eq_iff_of_kind (q := fun m => m.head? = some 'm') complete (by decide)
    head?_message_of_not_isMissing (by decide +kernel) h e

/-! ## Reports -/

def opacityMissing : Text := "appearance: missing opacity; defaults to 100"

def visibilityMissing : Text := "appearance: missing visibility; defaults to visible"

theorem line_missingOpacity :
    Property.appearance.name ++ ": " ++ Error.missingOpacity.message = opacityMissing := by
  decide +kernel

theorem line_missingVisibility :
    Property.appearance.name ++ ": " ++ Error.missingVisibility.message = visibilityMissing := by
  decide +kernel

/-- What a report says of the opacity and the visibility that the tokens give. -/
structure ShowsLast (ts : List Token) (report : Report) : Prop where
  opacity : report.classes.filter ("opacity-".toList.isPrefixOf ·) =
    ["opacity-".toList ++ (lastOpacity ts).getD "100"]
  invisible : "invisible".toList ∈ report.classes ↔ lastVisibility ts = some false
  noOpacity : opacityMissing ∈ report.errors ↔ ∀ t ∈ ts, t.opacity? = none
  noVisibility : visibilityMissing ∈ report.errors ↔ ∀ t ∈ ts, visibility? t = none

theorem mem_errors_reading_iff {ts : List Token} (written : ts ≠ []) {err : Error}
    (h : err.isMissing) :
    Property.appearance.name ++ ": " ++ err.message ∈ (reading ts).errors ↔
      err ∈ missing (!(ts.filterMap visibility?).isEmpty)
        (!(ts.filterMap Token.opacity?).isEmpty) := by
  have none : err ∉ (run ts).draft.errors := fun he => by
    rw [missing_run ts err he] at h
    cases h
  rw [reading_of_ne_nil written, report, Draft.mem_errors_report_iff]
  simp only [Error.message_eq_iff_of_isMissing h, exists_eq_right, State.errors_finish,
    List.mem_append, none, false_or, opacitySeen_eq, visibilitySeen_eq]

theorem showsLast_reading {ts : List Token} (written : ts ≠ []) : ShowsLast ts (reading ts) := by
  have missed := fun err h => mem_errors_reading_iff written (show Error.isMissing err from h)
  refine ⟨?_, ?_, ?_, ?_⟩
  · rw [classes_reading written]
    exact opacity_classes_finish ts
  · rw [classes_reading written]
    exact invisible_mem_finish ts
  · rw [← line_missingOpacity, missed .missingOpacity rfl, ← List.filterMap_eq_nil_iff,
      ← List.isEmpty_iff]
    unfold missing
    cases (ts.filterMap visibility?).isEmpty <;> cases (ts.filterMap Token.opacity?).isEmpty <;>
      simp
  · rw [← line_missingVisibility, missed .missingVisibility rfl, ← List.filterMap_eq_nil_iff,
      ← List.isEmpty_iff]
    unfold missing
    cases (ts.filterMap visibility?).isEmpty <;> cases (ts.filterMap Token.opacity?).isEmpty <;>
      simp

end Inspector.Appearance
