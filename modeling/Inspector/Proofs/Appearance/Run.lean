import Inspector.Appearance
import Inspector.Proofs.Draft
import Inspector.Proofs.Observation

/-!
# What the entries do to an appearance

Whether an entry of an appearance is refused depends on the entry alone, so the errors of a run are
those of its entries, one after the other, and so is what has been seen. The end of the run adds
the errors about visibility and opacity and the default opacity.

    (run ts).draft.errors = (entries ts).flatMap Entry.errors                         (errors_run)
    (run ts).visibilitySeen = (entries ts).any Entry.isVisibility             (visibilitySeen_run)
-/

namespace Inspector.Appearance

open Text

/-- The entries of a list of tokens, from left to right. -/
def entries (ts : List Token) : List Entry := ts.flatMap Entry.ofToken

theorem run_eq_foldl (ts : List Token) : run ts = (entries ts).foldl State.apply {} := by
  rw [entries, List.foldl_flatMap]
  rfl

namespace Entry

def isVisibility : Entry → Bool
  | .visible | .hidden | .unclear _ => true
  | _ => false

def isOpacity : Entry → Bool
  | .opacity _ => true
  | _ => false

/-- The errors with which an entry is refused, none if it is not. -/
def errors : Entry → List Error
  | .unclear value => [.invalidVisibility value]
  | .opacity value =>
    if (Fragment.ofPercent? value).isSome then [] else [.invalidOpacity value]
  | .uniform value => if (radiusFragment? value).isSome then [] else [.invalidRadius value]
  | .corner k value =>
    if (radiusFragment? value).isSome then [] else [.invalidCornerRadius k value]
  | .visible | .hidden | .unread _ => []

end Entry

namespace State

variable (s : State)

/-- The errors found and the values seen so far. -/
def marks : List Error × Bool × Bool := (s.draft.errors, s.visibilitySeen, s.opacitySeen)

/-- What an entry adds to the marks depends on the entry alone. -/
theorem marks_apply (e : Entry) :
    (s.apply e).marks = (s.draft.errors ++ e.errors, s.visibilitySeen || e.isVisibility,
      s.opacitySeen || e.isOpacity) := by
  cases e with
  | opacity value =>
    cases h : Fragment.ofPercent? value <;>
      simp [marks, apply, setOpacity, error, Entry.errors, Entry.isVisibility, Entry.isOpacity, h]
  | uniform value =>
    cases h : radiusFragment? value <;>
      simp [marks, apply, setUniform, error, Entry.errors, Entry.isVisibility, Entry.isOpacity, h]
  | corner k value =>
    cases h : radiusFragment? value <;>
      simp [marks, apply, setCorner, error, Entry.errors, Entry.isVisibility, Entry.isOpacity, h]
  | _ =>
    simp [marks, apply, reveal, hide, error, warn, Entry.errors, Entry.isVisibility,
      Entry.isOpacity]

theorem errors_apply (e : Entry) : (s.apply e).draft.errors = s.draft.errors ++ e.errors :=
  congrArg (fun m => m.1) (s.marks_apply e)

theorem visibilitySeen_apply (e : Entry) :
    (s.apply e).visibilitySeen = (s.visibilitySeen || e.isVisibility) :=
  congrArg (fun m => m.2.1) (s.marks_apply e)

theorem opacitySeen_apply (e : Entry) :
    (s.apply e).opacitySeen = (s.opacitySeen || e.isOpacity) :=
  congrArg (fun m => m.2.2) (s.marks_apply e)

end State

/-! ## Runs -/

/-- An invariant that every entry keeps holds after every run. -/
theorem run_invariant {P : State → Prop} (init : P {})
    (step : ∀ {s : State} (e : Entry), P s → P (s.apply e)) (ts : List Token) : P (run ts) := by
  rw [run_eq_foldl]
  exact List.foldlRecOn (entries ts) State.apply init fun _ h e _ => step e h

theorem errors_run (ts : List Token) :
    (run ts).draft.errors = (entries ts).flatMap Entry.errors := by
  rw [run_eq_foldl, log_foldl (fun s : State => s.draft.errors) State.errors_apply]
  rfl

theorem visibilitySeen_run (ts : List Token) :
    (run ts).visibilitySeen = (entries ts).any Entry.isVisibility := by
  rw [run_eq_foldl, seen_foldl State.visibilitySeen State.visibilitySeen_apply]
  rfl

theorem opacitySeen_run (ts : List Token) :
    (run ts).opacitySeen = (entries ts).any Entry.isOpacity := by
  rw [run_eq_foldl, seen_foldl State.opacitySeen State.opacitySeen_apply]
  rfl

/-! ## The end -/

namespace State

variable (s : State)

/-- The end of an appearance adds the default opacity to its classes, if need be. -/
theorem classes_finish : s.finish.draft.classes =
    if s.draft.contains .opacity then s.draft.classes
    else s.draft.classes.insert .opacity "opacity-100" := by
  unfold finish
  cases hv : s.visibilitySeen <;> cases ho : s.opacitySeen <;>
    cases h : s.draft.classes.contains .opacity <;> simp [error, hv, ho, h]

/-- An appearance ends without an error exactly if none was found on the way and a visibility and
an opacity were seen. -/
theorem errors_finish_eq_nil_iff :
    s.finish.draft.errors = [] ↔ s.draft.errors = [] ∧ s.visibilitySeen ∧ s.opacitySeen := by
  unfold finish
  cases hv : s.visibilitySeen <;> cases ho : s.opacitySeen <;>
    cases h : s.draft.classes.contains .opacity <;> simp [error, hv, ho, h]

theorem noted_finish {p : Warning → Bool} : s.finish.draft.noted p = s.draft.noted p := by
  unfold finish
  dsimp only
  split_ifs <;> rfl

end State

end Inspector.Appearance
