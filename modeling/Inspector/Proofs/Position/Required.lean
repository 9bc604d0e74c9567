import Inspector.Proofs.Position.Flags
import Inspector.Proofs.Text

/-!
# The required values of a position

A position has to say whether the element leaves the layout and how it is turned. A flag counts
whatever its value, and so does the key of a rotation; a bare token has to be a turn to count as one.

    (Entry.ofToken t).isRotation = givesRotation t                            (isRotation_ofToken)
    s.finish.draft.errors = s.draft.errors ++ missing s.flagSeen s.rotationSeen    (errors_finish)
-/

namespace Inspector.Position

open Text

/-! ## Tokens -/

/-- A turn that stands bare, or the key of a rotation. -/
def givesRotation : Token → Bool
  | .bare text => (Turn.ofText? text).isSome
  | .pair key _ => lower key == "rotation" || lower key == "rotate"

/-- The bare words that are about something else: the flags and the edges. -/
def otherWords : List Text :=
  ["ignore-auto-layout", "ignore-layout", "detached", "left", "right", "top", "bottom"]

theorem Turn.ofText?_lower (text : Text) : ofText? (lower text) = ofText? text := by
  unfold ofText?
  rw [trim_lower, lower_lower]

theorem Turn.ofText?_of_mem {text : Text} (h : lower text ∈ otherWords) : ofText? text = none := by
  have each : ∀ w ∈ otherWords, ofText? w = none := by decide
  rw [← ofText?_lower]
  exact each _ h

theorem mem_otherWords_of_isFlagKey {word : Text} (h : isFlagKey word) : word ∈ otherWords := by
  simp only [isFlagKey, Bool.or_eq_true, decide_eq_true_eq] at h
  simp only [otherWords, List.mem_cons]
  tauto

theorem mem_otherWords_of_isEdge {word : Text} (h : isEdge word) : word ∈ otherWords := by
  simp only [isEdge, Bool.or_eq_true, decide_eq_true_eq] at h
  simp only [otherWords, List.mem_cons]
  tauto

/-- A token is read as a rotation exactly if it gives one. -/
theorem isRotation_ofToken (t : Token) : (Entry.ofToken t).isRotation = givesRotation t := by
  cases t with
  | bare text =>
    simp only [Entry.ofToken, Entry.ofBare, givesRotation]
    split_ifs with flag edge turn
    · rw [Turn.ofText?_of_mem (mem_otherWords_of_isFlagKey flag)]
      rfl
    · rw [Turn.ofText?_of_mem (mem_otherWords_of_isEdge edge)]
      rfl
    · exact turn.symm
    · exact (Bool.eq_false_iff.2 turn).symm
  | pair key value =>
    simp only [Entry.ofToken, givesRotation]
    by_cases rotation : lower key = "rotation" ∨ lower key = "rotate"
    · rcases rotation with h | h <;> rw [h] <;> rfl
    · obtain ⟨rotation, rotate⟩ := not_or.1 rotation
      have none : (Entry.ofPair (.pair key value) (lower key) value).isRotation = false := by
        unfold Entry.ofPair
        split_ifs <;> rfl
      rw [none, beq_false_of_ne rotation, beq_false_of_ne rotate]
      rfl

/-! ## The end -/

/-- The errors about the required values that were not seen. -/
def missing (flag rotation : Bool) : List Error :=
  (if flag then [] else [.missingFlag]) ++ if rotation then [] else [.missingRotation]

/-- The end of a position adds the errors about what is missing. -/
theorem State.errors_finish (s : State) :
    s.finish.draft.errors = s.draft.errors ++ missing s.flagSeen s.rotationSeen := by
  unfold finish
  cases hf : s.flagSeen <;> cases hr : s.rotationSeen <;>
    simp [errors_setFrame, error, missing, hf, hr]

/-- No token reports a value as missing: that is left to the end. -/
theorem missing_run (ts : List Token) : ∀ e ∈ (run ts).draft.errors, e.isMissing = false := by
  refine run_invariant (P := fun s => ∀ e ∈ s.draft.errors, e.isMissing = false) ?_ ?_
  · rw [errors_flagged]
    intro e he
    obtain ⟨t, -, ht⟩ := List.mem_flatMap.1 he
    cases t with
    | bare text => cases ht
    | pair key value =>
      simp only [flagErrors] at ht
      split at ht
      · rw [List.mem_singleton.1 ht]
        rfl
      · cases ht
  · intro s s' none hc
    cases hc with
    | refused h => exact List.forall_mem_append.2 ⟨none, List.forall_mem_singleton.2 h⟩
    | turn t =>
      cases t with
      | angle degrees =>
        simp only [State.setTurn]
        split
        · rwa [Draft.errors_put]
        · exact none
      | _ => exact none
    | place _ => simpa [State.place] using none
    | depth _ => simpa using none
    | _ => exact none

/-! ## Reports -/

theorem head?_message_of_not_isMissing {e : Error} (h : e.isMissing = false) :
    e.message.head? ≠ some 'm' := by
  cases e with
  | notDetached => exact (by decide : some '\'' ≠ some 'm')
  | invalidOffset axis => cases axis <;> exact (by decide : some 'i' ≠ some 'm')
  | missingFlag | missingRotation => cases h
  | _ => exact (by decide : some 'i' ≠ some 'm')

/-- A missing value has a message of its own. -/
theorem Error.message_eq_iff_of_isMissing {err : Error} (h : err.isMissing) (e : Error) :
    e.message = err.message ↔ e = err := by
  have complete {e : Error} (h : e.isMissing) : e ∈ [.missingFlag, .missingRotation] := by
    cases e with
    | missingFlag | missingRotation => decide
    | _ => cases h
  exact Draft.message_eq_iff_of_kind (q := fun m => m.head? = some 'm') complete (by decide)
    head?_message_of_not_isMissing (by decide +kernel) h e

/-- The lines about missing values are those of the values that no token gives. -/
theorem mem_errors_read_iff (input : Option Text) {err : Error} (h : err.isMissing) :
    Property.position.name ++ ": " ++ err.message ∈ (read input).report.errors ↔
      err ∈ missing ((tokens input).any isFlag) ((tokens input).any givesRotation) := by
  have none : err ∉ (run (tokens input)).draft.errors := fun he => by
    rw [missing_run _ err he] at h
    cases h
  have rotation : (run (tokens input)).rotationSeen = (tokens input).any givesRotation := by
    rw [rotationSeen_run]
    exact congrArg _ (funext isRotation_ofToken)
  rw [read, Draft.mem_errors_report_iff]
  simp only [Error.message_eq_iff_of_isMissing h, exists_eq_right, State.errors_finish,
    List.mem_append, none, false_or, flagSeen_run, rotation]

/-! ### Their lines -/

def flagMissing : Text := "position: missing ignore-auto-layout flag; defaults to false"

def rotationMissing : Text := "position: missing rotation; use rotation=none for no rotation"

theorem line_missingFlag :
    Property.position.name ++ ": " ++ Error.missingFlag.message = flagMissing := by decide +kernel

theorem line_missingRotation :
    Property.position.name ++ ": " ++ Error.missingRotation.message = rotationMissing := by
  decide +kernel

/-- What a report says of the required values of a position. -/
structure ReportsRequired (ts : List Token) (report : Report) : Prop where
  flag : flagMissing ∈ report.errors ↔ ¬ ∃ t ∈ ts, isFlag t
  rotation : rotationMissing ∈ report.errors ↔ ¬ ∃ t ∈ ts, givesRotation t

theorem reportsRequired_read (input : Option Text) :
    ReportsRequired (tokens input) (read input).report := by
  have missed := fun err h => mem_errors_read_iff input (show Error.isMissing err from h)
  constructor
  · rw [← line_missingFlag, missed .missingFlag rfl, ← List.any_eq_true]
    unfold missing
    cases (tokens input).any isFlag <;> simp
  · rw [← line_missingRotation, missed .missingRotation rfl, ← List.any_eq_true]
    unfold missing
    cases (tokens input).any givesRotation <;> simp

end Inspector.Position
