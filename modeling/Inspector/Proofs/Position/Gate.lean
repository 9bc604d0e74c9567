import Inspector.Proofs.Position.LastWrite
import Inspector.Proofs.Position.Required

/-!
# Tokens that only a detached element may have

A place is for detached elements. Where the element is not detached, each token that gives a place
is refused with one error of its own, which quotes it, and the classes are those of the position
without it.

    isGated t → s.detached = false → s.step t = s.error (.notDetached t)          (step_of_isGated)
    (run ts).draft.errors = those of the flags, and then those of the entries          (errors_run)
    the errors of the gate are those of the gated tokens, in order               (gates_errors_finish)
    reading ts has the classes of reading (ts without gated tokens)              (classes_ungated)
-/

namespace Inspector.Position

open Text

/-- A bare edge, or a key that gives a place. -/
def isGated : Token → Bool
  | .bare text => isEdge (lower text)
  | .pair key _ => placementKeys.contains (lower key)

/-! ## Entries -/

theorem not_isFlagKey_of_isEdge {word : Text} (h : isEdge word) : isFlagKey word = false := by
  simp only [isEdge, Bool.or_eq_true, decide_eq_true_eq] at h
  rcases h with ((rfl | rfl) | rfl) | rfl <;> rfl

theorem not_isFlagKey_of_mem {key : Text} (h : key ∈ placementKeys) : isFlagKey key = false := by
  have each : ∀ key ∈ placementKeys, isFlagKey key = false := by decide
  exact each key h

theorem isFlag_of_isGated {t : Token} (h : isGated t) : isFlag t = false := by
  cases t with
  | bare text => exact not_isFlagKey_of_isEdge h
  | pair key value => exact not_isFlagKey_of_mem (List.contains_iff_mem.1 h)

theorem family_eq_placement_iff (t : Token) : family t = .placement ↔ isGated t := by
  cases t with
  | bare text =>
    simp only [family, isGated]
    cases he : isEdge (lower text) with
    | true =>
      rw [not_isFlagKey_of_isEdge he, if_neg Bool.false_ne_true, if_pos rfl]
      exact iff_of_true rfl rfl
    | false =>
      refine iff_of_false ?_ Bool.false_ne_true
      rw [if_neg Bool.false_ne_true]
      split_ifs <;> simp
  | pair key value =>
    simp only [family, isGated, keyFamily]
    cases hk : placementKeys.contains (lower key) with
    | true =>
      have mem := List.contains_iff_mem.1 hk
      have other : ∀ key ∈ placementKeys, ¬ (key = "rotation" ∨ key = "rotate") := by decide
      rw [not_isFlagKey_of_mem mem, if_neg Bool.false_ne_true, if_neg (other _ mem), if_pos rfl]
      exact iff_of_true rfl rfl
    | false =>
      refine iff_of_false ?_ Bool.false_ne_true
      rw [if_neg Bool.false_ne_true]
      split_ifs <;> simp

/-- A placement keeps the token that it comes from. -/
theorem Entry.token_eq_of_placement {t t' : Token} {p : Placement}
    (h : ofToken t = .placement t' p) : t' = t := by
  cases t with
  | bare text =>
    simp only [ofToken, ofBare] at h
    split_ifs at h
    cases h
    rfl
  | pair key value =>
    simp only [ofToken, ofPair] at h
    split_ifs at h <;> cases h <;> rfl

theorem exists_placement_of_isGated {t : Token} (h : isGated t) :
    ∃ p, Entry.ofToken t = .placement t p := by
  have placed : (Entry.ofToken t).family = .placement := by
    rw [family_ofToken, family_eq_placement_iff, h]
  cases he : Entry.ofToken t with
  | placement t' p => exact ⟨p, by rw [Entry.token_eq_of_placement he]⟩
  | _ =>
    rw [he] at placed
    cases placed

/-! ## Errors -/

def rotationErrors : Token → List Error
  | .bare text => if (Turn.ofText? text).isSome then [] else [.invalidRotation (.bare text)]
  | .pair key value => [.invalidRotation (.pair key value)]

def Constraint.errors : Constraint → List Error
  | .on axis value =>
    if (constraint? axis value).isSome then [] else [.invalidConstraint axis value]
  | .unknown _ => []

def Placement.errors : Placement → List Error
  | .edge value => if (edge? value).isSome then [] else [.invalidEdge value]
  | .offset axis value =>
    if (Fragment.ofLength? value).isSome then [] else [.invalidOffset axis value]
  | .constrain items => items.flatMap Constraint.errors

/-- The errors with which an entry is refused, none if it is not. -/
def Entry.errors (detached : Bool) : Entry → List Error
  | .placement token p => if detached then p.errors else [.notDetached token]
  | .rotation items => items.flatMap rotationErrors
  | .depth value => if (depthClass? value).isSome then [] else [.invalidDepth value]
  | .flag | .unknownKey _ | .unrecognized _ => []

namespace State

variable (s : State)

theorem errors_setRotationItem (i : Token) :
    (s.setRotationItem i).draft.errors = s.draft.errors ++ rotationErrors i := by
  cases i with
  | bare text =>
    simp only [setRotationItem, rotationErrors]
    cases Turn.ofText? text with
    | none => rfl
    | some t => exact (s.errors_setTurn t).trans (List.append_nil _).symm
  | pair key value => rfl

theorem errors_place (axis : Axis) (cs : List Text) :
    (s.place axis cs).draft.errors = s.draft.errors ++ [] :=
  (Draft.errors_put _ _ _ _).trans (List.append_nil _).symm

theorem errors_setConstraint (c : Constraint) :
    (s.setConstraint c).draft.errors = s.draft.errors ++ c.errors := by
  cases c with
  | on axis value =>
    simp only [setConstraint, Constraint.errors]
    cases constraint? axis value with
    | none => rfl
    | some cs => exact s.errors_place axis cs
  | unknown item => exact (List.append_nil _).symm

theorem errors_setPlacement (p : Placement) :
    (s.setPlacement p).draft.errors = s.draft.errors ++ p.errors := by
  cases p with
  | edge value =>
    simp only [setPlacement, Placement.errors]
    cases edge? value with
    | none => rfl
    | some place => exact s.errors_place place.1 [place.2]
  | offset axis value =>
    simp only [setPlacement, Placement.errors]
    cases Fragment.ofLength? value with
    | none => rfl
    | some f => exact s.errors_place axis _
  | constrain items => exact log_foldl (fun s : State => s.draft.errors) errors_setConstraint items s

theorem errors_apply (e : Entry) :
    (s.apply e).draft.errors = s.draft.errors ++ e.errors s.detached := by
  cases e with
  | flag => exact (List.append_nil _).symm
  | placement token p =>
    simp only [apply, Entry.errors]
    split
    · exact s.errors_setPlacement p
    · rfl
  | rotation items =>
    exact log_foldl (fun s : State => s.draft.errors) errors_setRotationItem items
      { s with rotationSeen := true }
  | depth value =>
    simp only [apply, setDepth, Entry.errors]
    cases depthClass? value with
    | none => rfl
    | some c => exact (Draft.errors_put _ _ _ _).trans (List.append_nil _).symm
  | unknownKey key => exact (List.append_nil _).symm
  | unrecognized text => exact (List.append_nil _).symm

/-- The flags, which no token changes any more, decide what a run reports. -/
theorem errors_foldl_step (ts : List Token) : (ts.foldl step s).draft.errors =
    s.draft.errors ++ ts.flatMap fun t => (Entry.ofToken t).errors s.detached := by
  induction ts generalizing s with
  | nil => exact (List.append_nil _).symm
  | cons t ts ih =>
    rw [List.foldl_cons, ih, detached_step, step, errors_apply, List.flatMap_cons,
      List.append_assoc]

/-- A gated token is refused and changes nothing, unless the element is detached. -/
theorem step_of_isGated {t : Token} (h : isGated t) (attached : s.detached = false) :
    s.step t = s.error (.notDetached t) := by
  obtain ⟨p, hp⟩ := exists_placement_of_isGated h
  rw [step, hp, apply, attached]
  rfl

end State

theorem detached_run_eq (ts : List Token) : (run ts).detached = (flagged ts).detached :=
  kept_foldl State.detached State.detached_step ts (flagged ts)

theorem errors_run (ts : List Token) : (run ts).draft.errors =
    ts.flatMap flagErrors ++
      ts.flatMap fun t => (Entry.ofToken t).errors (flagged ts).detached := by
  rw [← errors_flagged]
  exact State.errors_foldl_step _ ts

/-! ## The gate -/

/-- The errors about a token that only a detached element may have. -/
def Error.isGate : Error → Bool
  | .notDetached _ => true
  | _ => false

theorem isGate_of_mem_flagErrors {t : Token} {e : Error} (h : e ∈ flagErrors t) :
    e.isGate = false := by
  cases t with
  | bare text => cases h
  | pair key value =>
    simp only [flagErrors] at h
    split at h
    · rw [List.mem_singleton.1 h]
      rfl
    · cases h

theorem isGate_of_mem_rotationErrors {i : Token} {e : Error} (h : e ∈ rotationErrors i) :
    e.isGate = false := by
  cases i with
  | bare text =>
    simp only [rotationErrors] at h
    split at h
    · cases h
    · rw [List.mem_singleton.1 h]
      rfl
  | pair key value =>
    rw [List.mem_singleton.1 h]
    rfl

/-- Without detachment, the gate refuses a token exactly if it is gated. -/
theorem gates_ofToken (t : Token) : ((Entry.ofToken t).errors false).filter Error.isGate =
    if isGated t then [.notDetached t] else [] := by
  by_cases gated : isGated t
  · obtain ⟨p, hp⟩ := exists_placement_of_isGated gated
    rw [hp, if_pos gated]
    rfl
  · have other : (Entry.ofToken t).family ≠ .placement := by
      rwa [family_ofToken, Ne, family_eq_placement_iff]
    rw [if_neg gated, List.filter_eq_nil_iff]
    intro e he
    rw [Bool.not_eq_true]
    generalize Entry.ofToken t = entry at other he
    cases entry with
    | placement token p => exact absurd rfl other
    | rotation items =>
      obtain ⟨i, -, hi⟩ := List.mem_flatMap.1 he
      exact isGate_of_mem_rotationErrors hi
    | depth value =>
      simp only [Entry.errors] at he
      split at he
      · cases he
      · rw [List.mem_singleton.1 he]
        rfl
    | flag | unknownKey | unrecognized => cases he

theorem gates_errors_finish {ts : List Token} (attached : (flagged ts).detached = false) :
    (run ts).finish.draft.errors.filter Error.isGate =
      (ts.filter isGated).map .notDetached := by
  have flags : (ts.flatMap flagErrors).filter Error.isGate = [] := by
    refine List.filter_eq_nil_iff.2 fun e he => ?_
    obtain ⟨t, -, ht⟩ := List.mem_flatMap.1 he
    rw [isGate_of_mem_flagErrors ht]
    exact Bool.false_ne_true
  have ends : (missing (run ts).flagSeen (run ts).rotationSeen).filter Error.isGate = [] := by
    cases (run ts).flagSeen <;> cases (run ts).rotationSeen <;> rfl
  have gated (ts : List Token) : (ts.filter isGated).map Error.notDetached =
      ts.flatMap fun t => if isGated t then [.notDetached t] else [] := by
    induction ts with
    | nil => rfl
    | cons t ts ih => cases h : isGated t <;> simp [h, ih]
  rw [State.errors_finish, errors_run, attached, List.filter_append, List.filter_append, flags, ends,
    List.filter_flatMap, List.nil_append, List.append_nil, gated]
  exact congrArg (ts.flatMap ·) (funext gates_ofToken)

/-! ## Reports -/

/-- How the lines about gated tokens begin: with the token, quoted. -/
def gateLead : Text := "position: '"

/-- The line about a gated token. -/
def gateLine (t : Token) : Text :=
  gateLead ++ t.written ++ "' requires ignore-auto-layout=true and was ignored"

theorem gateLead_isPrefixOf (e : Error) :
    gateLead.isPrefixOf (Property.position.name ++ ": " ++ e.message) = e.isGate := by
  cases e with
  | invalidOffset axis => cases axis <;> rfl
  | _ => rfl

/-- Each gated token of an element that is not detached has a line of its own, in order. -/
theorem gate_lines_reading {ts : List Token} (attached : (flagged ts).detached = false) :
    (reading ts).report.errors.filter (gateLead.isPrefixOf ·) =
      (ts.filter isGated).map gateLine := by
  rw [reading, Draft.filter_errors_report _ .position _ _ gateLead_isPrefixOf,
    gates_errors_finish attached, List.map_map]
  rfl

/-- An element that is not detached has the same classes without the gated tokens. -/
theorem classes_ungated {ts : List Token} (attached : (flagged ts).detached = false) :
    (reading ts).report.classes = (reading (ts.filter (!isGated ·))).report.classes := by
  have flags : flagged (ts.filter (!isGated ·)) = flagged ts := by
    refine foldl_filter_of_unheeded (fun s t gated => ?_) ts ({} : State)
    rw [Bool.not_eq_false'] at gated
    exact s.readFlag_of_not_isFlag (isFlag_of_isGated gated)
  have unheeded (ts : List Token) :
      (ts.filter (!isGated ·)).flatMap (updates false) = ts.flatMap (updates false) := by
    induction ts with
    | nil => rfl
    | cons t ts ih =>
      cases gated : isGated t with
      | false => simp [gated, ih]
      | true =>
        obtain ⟨p, hp⟩ := exists_placement_of_isGated gated
        have none : updates false t = [] := by
          rw [updates, hp]
          rfl
        simp [gated, ih, none]
  refine congrArg ClassMap.classes (State.classes_finish_congr ?_ ?_)
  · rw [detached_run_eq, detached_run_eq, flags]
  · rw [classes_run, classes_run, flags, attached, unheeded]

end Inspector.Position
