import Inspector.Position
import Inspector.Proofs.Draft
import Inspector.Proofs.Observation
import Mathlib.Logic.Relation

/-!
# What the tokens do to a position

The flags are read first: they decide whether the element is detached and leave its classes alone.
The tokens then come to a number of single changes: a turn, a place, a depth, an error, a warning.

    (run ts).flagSeen = ts.any isFlag                                              (flagSeen_run)
    P holds after the flags → P is kept by every change → P (run ts)             (run_invariant)
-/

namespace Inspector.Position

open Text Relation

/-- The errors about a value that is not there, which only the end of a position finds. -/
def Error.isMissing : Error → Bool
  | .missingFlag | .missingRotation => true
  | _ => false

/-! ## Flags -/

/-- Whether a token is a flag, whatever value it gives. -/
def isFlag : Token → Bool
  | .bare text => isFlagKey (lower text)
  | .pair key _ => isFlagKey (lower key)

/-- The errors with which a flag is refused, none if the token is valid or no flag. -/
def flagErrors : Token → List Error
  | .bare _ => []
  | .pair key value =>
    if isFlagKey (lower key) && (toggle? value).isNone then [.invalidFlag key value] else []

/-- The value of a flag, if it is valid; a bare flag counts as on. -/
def flagValue? : Token → Option Bool
  | .bare text => if isFlagKey (lower text) then some true else none
  | .pair key value => if isFlagKey (lower key) then toggle? value else none

/-- The state after the flags. -/
def flagged (ts : List Token) : State := ts.foldl State.readFlag {}

namespace State

variable (s : State) (t : Token)

/-- What a token does while the flags are read. -/
theorem readFlag_eq : s.readFlag t =
    { s with
      draft := { s.draft with errors := s.draft.errors ++ flagErrors t }
      flagSeen := s.flagSeen || isFlag t
      detached := (flagValue? t).getD s.detached } := by
  cases t with
  | bare text =>
    cases h : isFlagKey (lower text) <;> simp [readFlag, flagErrors, isFlag, flagValue?, h]
  | pair key value =>
    cases h : isFlagKey (lower key) <;> cases hv : toggle? value <;>
      simp [readFlag, error, Draft.error, flagErrors, isFlag, flagValue?, h, hv]

theorem flagSeen_readFlag : (s.readFlag t).flagSeen = (s.flagSeen || isFlag t) := by
  rw [readFlag_eq]

theorem errors_readFlag : (s.readFlag t).draft.errors = s.draft.errors ++ flagErrors t := by
  rw [readFlag_eq]

theorem classes_readFlag : (s.readFlag t).draft.classes = s.draft.classes := by
  rw [readFlag_eq]

theorem rotationSeen_readFlag : (s.readFlag t).rotationSeen = s.rotationSeen := by
  rw [readFlag_eq]

end State

theorem flagSeen_flagged (ts : List Token) : (flagged ts).flagSeen = ts.any isFlag := by
  rw [flagged, seen_foldl State.flagSeen State.flagSeen_readFlag]
  rfl

theorem errors_flagged (ts : List Token) :
    (flagged ts).draft.errors = ts.flatMap flagErrors := by
  rw [flagged, log_foldl (fun s : State => s.draft.errors) State.errors_readFlag]
  rfl

theorem classes_flagged (ts : List Token) : (flagged ts).draft.classes = {} :=
  kept_foldl (fun s : State => s.draft.classes) State.classes_readFlag ts {}

theorem rotationSeen_flagged (ts : List Token) : (flagged ts).rotationSeen = false :=
  kept_foldl State.rotationSeen State.rotationSeen_readFlag ts {}

/-! ## Changes -/

/-- The classes that a place on an axis may come to. -/
def Axis.Admits (axis : Axis) (cs : List Text) : Prop :=
  (∃ value c, edge? value = some (axis, c) ∧ cs = [c]) ∨
    (∃ value f, Fragment.ofLength? value = some f ∧ cs = [offsetLead axis ++ f]) ∨
    ∃ value, constraint? axis value = some cs

namespace State

/-- One change of the state `s` by a token that is no flag. -/
inductive Change (s : State) : State → Prop
  | warned (w : Warning) : Change s (s.warn w)
  | refused {e : Error} (h : e.isMissing = false) : Change s (s.error e)
  | rotation : Change s { s with rotationSeen := true }
  | turn (t : Turn) : Change s (s.setTurn t)
  | place {axis : Axis} {cs : List Text} (h : axis.Admits cs) : Change s (s.place axis cs)
  | depth {value c : Text} (h : depthClass? value = some c) :
      Change s { s with draft := s.draft.put .depth [c] (.superseded .depth) }

/-- Any number of changes, one after the other. -/
abbrev Changes : State → State → Prop := ReflTransGen Change

variable (s : State)

theorem change_setRotationItem (i : Token) : Change s (s.setRotationItem i) := by
  unfold setRotationItem
  split
  · split
    · exact .turn _
    · exact .refused rfl
  · exact .refused rfl

theorem change_setConstraint (c : Constraint) : Change s (s.setConstraint c) := by
  unfold setConstraint
  split
  · next axis value =>
    split
    · next cs hcs => exact .place (.inr (.inr ⟨value, hcs⟩))
    · exact .refused rfl
  · exact .warned _

/-- A fold over items each of which is one change. -/
theorem changes_foldl {α : Type} {f : State → α → State} (h : ∀ s a, Change s (f s a))
    (l : List α) : Changes s (l.foldl f s) :=
  List.foldlRecOn l f .refl fun s' hs a _ => hs.tail (h s' a)

theorem changes_setPlacement (p : Placement) : Changes s (s.setPlacement p) := by
  cases p with
  | edge value =>
    simp only [setPlacement]
    split
    · next axis c hc => exact .single (.place (.inl ⟨value, c, hc, rfl⟩))
    · exact .single (.refused rfl)
  | offset axis value =>
    simp only [setPlacement]
    split
    · next f hf => exact .single (.place (.inr (.inl ⟨value, f, hf, rfl⟩)))
    · exact .single (.refused rfl)
  | constrain items => exact s.changes_foldl change_setConstraint items

theorem changes_apply (e : Entry) : Changes s (s.apply e) := by
  cases e with
  | flag => exact .refl
  | placement token p =>
    simp only [apply]
    split
    · exact s.changes_setPlacement p
    · exact .single (.refused rfl)
  | rotation items =>
    exact .head .rotation (changes_foldl _ change_setRotationItem items)
  | depth value =>
    simp only [apply, setDepth]
    split
    · next c hc => exact .single (.depth hc)
    · exact .single (.refused rfl)
  | unknownKey key => exact .single (.warned _)
  | unrecognized text => exact .single (.warned _)

end State

/-! ## Runs -/

theorem changes_run (ts : List Token) : State.Changes (flagged ts) (run ts) :=
  List.foldlRecOn ts State.step .refl fun s h t _ => h.trans (s.changes_apply (Entry.ofToken t))

/-- An invariant that every change keeps holds after every run. -/
theorem run_invariant {ts : List Token} {P : State → Prop} (init : P (flagged ts))
    (step : ∀ {s s' : State}, P s → s.Change s' → P s') : P (run ts) := by
  have reached := changes_run ts
  generalize run ts = s at reached
  induction reached with
  | refl => exact init
  | tail _ hc ih => exact step ih hc

/-- The errors about the flags are never taken back. -/
theorem errors_run_of_flagged (ts : List Token) :
    (flagged ts).draft.errors <+: (run ts).draft.errors := by
  refine run_invariant (P := fun s => (flagged ts).draft.errors <+: s.draft.errors)
    (List.prefix_refl _) fun {s s'} h hc => ?_
  cases hc with
  | refused _ => exact h.trans (List.prefix_append _ _)
  | turn t =>
    cases t with
    | angle degrees =>
      simp only [State.setTurn]
      split
      · rwa [Draft.errors_put]
      · exact h
    | _ => exact h
  | place _ => simpa [State.place] using h
  | depth _ => simpa using h
  | _ => exact h

/-! ## What has been seen -/

def Entry.isRotation : Entry → Bool
  | .rotation _ => true
  | _ => false

namespace State

variable (s : State)

/-- What has been seen and decided, apart from the draft. -/
def marks : Bool × Bool × Bool := (s.detached, s.flagSeen, s.rotationSeen)

theorem marks_setTurn (t : Turn) : (s.setTurn t).marks = s.marks := by
  cases t with
  | angle degrees =>
    simp only [setTurn]
    split <;> rfl
  | _ => rfl

theorem marks_setRotationItem (i : Token) : (s.setRotationItem i).marks = s.marks := by
  unfold setRotationItem
  split
  · split
    · exact s.marks_setTurn _
    · rfl
  · rfl

theorem marks_setConstraint (c : Constraint) : (s.setConstraint c).marks = s.marks := by
  unfold setConstraint
  split
  · split <;> rfl
  · rfl

theorem marks_setPlacement (p : Placement) : (s.setPlacement p).marks = s.marks := by
  cases p with
  | constrain items => exact kept_foldl marks marks_setConstraint items s
  | _ =>
    simp only [setPlacement]
    split <;> rfl

/-- An entry changes no mark except that a rotation has been seen. -/
theorem marks_apply (e : Entry) :
    (s.apply e).marks = (s.detached, s.flagSeen, s.rotationSeen || e.isRotation) := by
  cases e with
  | placement token p =>
    simp only [apply]
    split
    · rw [marks_setPlacement]
      simp [marks, Entry.isRotation]
    · simp [marks, error, Entry.isRotation]
  | rotation items =>
    simp only [apply]
    rw [kept_foldl marks marks_setRotationItem]
    simp [marks, Entry.isRotation]
  | depth value =>
    simp only [apply, setDepth]
    split <;> simp [marks, error, Entry.isRotation]
  | _ => simp [apply, marks, warn, Entry.isRotation]

theorem flagSeen_step (t : Token) : (s.step t).flagSeen = s.flagSeen :=
  congrArg (fun m => m.2.1) (s.marks_apply (Entry.ofToken t))

theorem rotationSeen_step (t : Token) :
    (s.step t).rotationSeen = (s.rotationSeen || (Entry.ofToken t).isRotation) :=
  congrArg (fun m => m.2.2) (s.marks_apply (Entry.ofToken t))

end State

theorem flagSeen_run (ts : List Token) : (run ts).flagSeen = ts.any isFlag :=
  (kept_foldl State.flagSeen State.flagSeen_step ts (flagged ts)).trans (flagSeen_flagged ts)

theorem rotationSeen_run (ts : List Token) :
    (run ts).rotationSeen = ts.any fun t => (Entry.ofToken t).isRotation := by
  show (ts.foldl State.step (flagged ts)).rotationSeen = _
  rw [seen_foldl State.rotationSeen State.rotationSeen_step, rotationSeen_flagged]
  rfl

/-! ## The end -/

namespace State

variable (s : State)

theorem errors_setFrame : s.setFrame.draft.errors = s.draft.errors := by
  unfold setFrame
  split
  · dsimp only
    split <;> rfl
  · split <;> rfl

/-- A position ends without an error exactly if none was found on the way and a flag and a rotation
were seen. -/
theorem errors_finish_eq_nil_iff :
    s.finish.draft.errors = [] ↔ s.draft.errors = [] ∧ s.flagSeen ∧ s.rotationSeen := by
  unfold finish
  cases hf : s.flagSeen <;> cases hr : s.rotationSeen <;> simp [errors_setFrame, error, hf, hr]

end State

end Inspector.Position
