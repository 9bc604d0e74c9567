import Inspector.Proofs.Draft
import Inspector.Proofs.Observation
import Inspector.Stroke

/-!
# What the entries do to a stroke

Whether an entry of a stroke is refused depends on the entry alone, so the errors of a run are
those of its entries, one after the other. The end of the run adds the errors about color and
weight and leaves the classes as they are.

    (run ts).errors = (entries ts).flatMap Entry.errors                               (errors_run)
    s.finish.errors = [] ↔ s.errors = [] ∧ s.contains .color ∧ s.isWeighted
                                                                      (errors_finish_eq_nil_iff)
-/

namespace Inspector.Stroke

open Text

/-- The entries of a list of tokens, from left to right. -/
def entries (ts : List Token) : List Entry := ts.flatMap Entry.ofToken

theorem run_eq_foldl (ts : List Token) : run ts = (entries ts).foldl State.apply {} := by
  rw [entries, List.foldl_flatMap]
  rfl

/-- The errors with which an entry is refused, none if it is not. -/
def Entry.errors : Entry → List Error
  | .color value => if (Color.ofText? value "border").isSome then [] else [.invalidColor value]
  | .opacity value =>
    if (Fragment.ofPercent? value).isSome then [] else [.invalidOpacity value]
  | .position value =>
    if centerWords.contains (lower (trim value)) then [] else [.unsupportedPosition value]
  | .style value =>
    if styleWords.contains (lower (trim value)) then [] else [.invalidStyle value]
  | .uniform value =>
    if (weightClass? "border" value).isSome then [] else [.invalidWeight value]
  | .side k value =>
    if (weightClass? ("border-" ++ k.short) value).isSome then [] else [.invalidSideWeight k value]
  | .unread _ => []

namespace State

variable (s : State)

theorem errors_apply (e : Entry) : (s.apply e).errors = s.errors ++ e.errors := by
  cases e with
  | color value =>
    simp only [apply, setColor, Entry.errors]
    cases Color.ofText? value "border" <;> simp
  | opacity value =>
    simp only [apply, setOpacity, Entry.errors]
    cases Fragment.ofPercent? value <;> simp
  | position value =>
    simp only [apply, checkPosition, Entry.errors]
    split <;> simp
  | style value =>
    simp only [apply, setStyle, Entry.errors]
    split <;> simp
  | uniform value =>
    simp only [apply, setUniform, Entry.errors]
    cases weightClass? "border" value <;> simp
  | side side value =>
    simp only [apply, setSide, Entry.errors]
    cases weightClass? ("border-" ++ side.short) value <;> simp
  | unread u => simp [apply, Entry.errors]

end State

/-! ## Runs -/

/-- An invariant that every entry keeps holds after every run. -/
theorem run_invariant {P : State → Prop} (init : P {})
    (step : ∀ {s : State} (e : Entry), P s → P (s.apply e)) (ts : List Token) : P (run ts) := by
  rw [run_eq_foldl]
  exact List.foldlRecOn (entries ts) State.apply init fun _ h e _ => step e h

theorem errors_run (ts : List Token) : (run ts).errors = (entries ts).flatMap Entry.errors := by
  rw [run_eq_foldl, log_foldl Draft.errors State.errors_apply]
  rfl

/-! ## The end -/

namespace State

variable (s : State)

@[simp] theorem classes_finish : s.finish.classes = s.classes := by
  unfold finish
  dsimp only
  split <;> split <;> rfl

theorem noted_finish {p : Warning → Bool} : s.finish.noted p = s.noted p := by
  unfold finish
  dsimp only
  split <;> split <;> rfl

@[simp] theorem isWeighted_error (e : Error) : isWeighted (Draft.error s e) = s.isWeighted := rfl

/-- A stroke ends without an error exactly if none was found on the way and a color and a weight
are held. -/
theorem errors_finish_eq_nil_iff :
    s.finish.errors = [] ↔ s.errors = [] ∧ s.contains .color ∧ s.isWeighted := by
  unfold finish
  cases hc : s.classes.contains .color <;> cases hw : s.isWeighted <;>
    simp [hc, hw]

end State

end Inspector.Stroke
