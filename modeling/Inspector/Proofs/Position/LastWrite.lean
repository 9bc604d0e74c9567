import Inspector.Proofs.Position.Family
import Inspector.Proofs.Position.Outcome

/-!
# Earlier values of a position

A position has one depth, one angle, and one place on each axis. What an entry gives of these is
lost in the next entry of the kind that is taken. Whether a place is taken hangs on the flags of the
whole position, which are the same with and without the earlier value; and so is the frame, which
the end of the position sets by the flags and by whether there is a depth.

    Gives k t → t updates k.concern alone, if it is not refused                (writes_of_gives)
    xs ++ t :: ys ++ u :: zs and xs ++ ys ++ u :: zs have the same classes     (reading_without)
-/

namespace Inspector.Position

/-! ## Kinds -/

/-- The kinds of values of which the last one alone counts. -/
inductive Kind where
  | depth
  | rotation
  | place (axis : Axis)
  deriving DecidableEq, Repr

def Kind.concern : Kind → Concern
  | .depth => .depth
  | .rotation => .rotate
  | .place axis => .place axis

/-- A text that mirrors the element, instead of giving it an angle or none. -/
def mirrors (text : Text) : Bool :=
  Turn.ofText? text = some .flipX || Turn.ofText? text = some .flipY

/-- The placement is on this axis; an edge that is none is on either. -/
def Placement.IsOn (axis : Axis) : Placement → Prop
  | .edge value => ∀ p, edge? value = some p → p.1 = axis
  | .offset a _ => a = axis
  | .constrain items => ∃ value, items = [.on axis value]

namespace Entry

/-- The entry gives one value of this kind, valid or not. -/
def Gives : Kind → Entry → Prop
  | .depth, .depth _ => True
  | .rotation, .rotation items => ∃ text, items = [.bare text] ∧ mirrors text = false
  | .place axis, .placement _ p => p.IsOn axis
  | _, _ => False

end Entry

/-- The token gives a value of this kind and nothing else, as every plain token of the kind does. -/
def Gives (k : Kind) (t : Token) : Prop := (Entry.ofToken t).Gives k

/-- What a token changes in the classes. -/
def updates (detached : Bool) (t : Token) : List (ClassMap.Update Concern) :=
  (Entry.ofToken t).updates detached

theorem isFlag_of_gives {k : Kind} {t : Token} (h : Gives k t) : isFlag t = false := by
  rw [Bool.eq_false_iff]
  intro flag
  have flags : (Entry.ofToken t).family = .flags := by
    rw [family_ofToken]
    exact (isFlag_iff t).1 flag
  unfold Gives at h
  cases he : Entry.ofToken t with
  | flag =>
    rw [he] at h
    cases k <;> exact h
  | _ => simp [he, Entry.family] at flags

/-! ## Writes -/

namespace State

variable (s : State)

theorem writes_place {axis : Axis} (cs : List Text) :
    ClassMap.Writes (Concern.place axis) ((s.place axis cs).draft.errors = s.draft.errors)
      [.set (.place axis) cs] :=
  .inl ⟨Draft.errors_put _ _ _ _, rfl⟩

theorem writes_refused (k : Concern) (e : Error) :
    ClassMap.Writes k ((s.error e).draft.errors = s.draft.errors) [] :=
  .inr ⟨s.draft.errors_error_ne e, rfl⟩

theorem writes_setConstraint (axis : Axis) (value : Text) :
    ClassMap.Writes (Concern.place axis)
      ((s.setConstraint (.on axis value)).draft.errors = s.draft.errors)
      (Constraint.on axis value).updates := by
  simp only [setConstraint, Constraint.updates]
  cases constraint? axis value with
  | none => exact s.writes_refused _ _
  | some cs => exact s.writes_place cs

theorem writes_setPlacement {axis : Axis} {p : Placement} (h : p.IsOn axis) :
    ClassMap.Writes (Concern.place axis) ((s.setPlacement p).draft.errors = s.draft.errors)
      p.updates := by
  cases p with
  | edge value =>
    simp only [setPlacement, Placement.updates]
    cases he : edge? value with
    | none => exact s.writes_refused _ _
    | some place =>
      obtain rfl : place.1 = axis := h place he
      exact s.writes_place [place.2]
  | offset a value =>
    obtain rfl : a = axis := h
    simp only [setPlacement, Placement.updates]
    cases Fragment.ofLength? value with
    | none => exact s.writes_refused _ _
    | some f => exact s.writes_place [offsetLead a ++ f]
  | constrain items =>
    obtain ⟨value, rfl⟩ := h
    rw [Placement.updates, List.flatMap_singleton]
    exact s.writes_setConstraint axis value

theorem writes_setTurn {t : Turn} (h : t ≠ .flipX ∧ t ≠ .flipY) :
    ClassMap.Writes .rotate ((s.setTurn t).draft.errors = s.draft.errors) t.updates := by
  cases t with
  | upright => exact .inl ⟨rfl, rfl⟩
  | flipX => exact absurd rfl h.1
  | flipY => exact absurd rfl h.2
  | angle degrees =>
    refine .inl ⟨s.errors_setTurn _, ?_⟩
    simp only [Turn.updates]
    cases Angle.class? degrees <;> rfl

theorem writes_setRotationItem {text : Text} (h : mirrors text = false) :
    ClassMap.Writes .rotate ((s.setRotationItem (.bare text)).draft.errors = s.draft.errors)
      (rotationUpdates (.bare text)) := by
  simp only [setRotationItem, rotationUpdates]
  cases ht : Turn.ofText? text with
  | none => exact s.writes_refused _ _
  | some t =>
    have turn : t ≠ .flipX ∧ t ≠ .flipY := by simpa [mirrors, ht] using h
    exact s.writes_setTurn turn

theorem writes_apply {k : Kind} {e : Entry} (h : e.Gives k) :
    ClassMap.Writes k.concern ((s.apply e).draft.errors = s.draft.errors)
      (e.updates s.detached) := by
  cases e with
  | placement token p =>
    cases k with
    | place axis =>
      simp only [apply, Entry.updates]
      split
      · exact s.writes_setPlacement h
      · exact s.writes_refused _ _
    | depth | rotation => exact h.elim
  | rotation items =>
    cases k with
    | rotation =>
      obtain ⟨text, rfl, plain⟩ := h
      rw [Entry.updates, List.flatMap_singleton]
      exact writes_setRotationItem { s with rotationSeen := true } plain
    | depth | place => exact h.elim
  | depth value =>
    cases k with
    | depth =>
      simp only [apply, setDepth, Entry.updates]
      cases depthClass? value with
      | none => exact s.writes_refused _ _
      | some c => exact .inl ⟨Draft.errors_put _ _ _ _, rfl⟩
    | rotation | place => exact h.elim
  | flag | unknownKey | unrecognized => cases k <;> exact h.elim

theorem writes_of_gives {k : Kind} {t : Token} (h : Gives k t) :
    ClassMap.Writes k.concern ((s.step t).draft.errors = s.draft.errors)
      (updates s.detached t) :=
  s.writes_apply h

/-! ## Runs -/

theorem classes_step (t : Token) :
    (s.step t).draft.classes = s.draft.classes.after (updates s.detached t) :=
  s.classes_apply (Entry.ofToken t)

/-- The flags, which no token changes any more, decide what a run updates. -/
theorem classes_foldl_step (ts : List Token) : (ts.foldl step s).draft.classes =
    s.draft.classes.after (ts.flatMap (updates s.detached)) := by
  induction ts generalizing s with
  | nil => rfl
  | cons t ts ih =>
    rw [List.foldl_cons, ih, detached_step, classes_step, List.flatMap_cons, ClassMap.after_append]

/-- The classes of a position hang on the flags and on the classes before the end alone. -/
theorem classes_finish_congr {s s' : State} (detached : s.detached = s'.detached)
    (classes : s.draft.classes = s'.draft.classes) :
    s.finish.draft.classes = s'.finish.draft.classes := by
  have frame {b : Bool} {d d' : Draft Concern Error Warning} (h : d.classes = d'.classes) :
      (framed b d).classes = (framed b d').classes := by
    cases b <;> cases depth : d'.classes.contains .depth <;> simp [framed, h, depth]
  rw [draft_finish, draft_finish, detached]
  refine frame ?_
  simp only [apply_ite Draft.classes, Draft.classes_error, classes, ite_self]

end State

theorem flagged_without {t : Token} (h : isFlag t = false) (xs ys : List Token) :
    flagged (xs ++ t :: ys) = flagged (xs ++ ys) := by
  unfold flagged
  rw [List.foldl_append, List.foldl_cons, State.readFlag_of_not_isFlag _ h, List.foldl_append]

theorem classes_run (ts : List Token) :
    (run ts).draft.classes = ClassMap.after {} (ts.flatMap (updates (flagged ts).detached)) := by
  show (ts.foldl State.step (flagged ts)).draft.classes = _
  rw [State.classes_foldl_step, classes_flagged]

/-- A position has the same classes without a value that a later one of its kind replaces. -/
theorem reading_without {k : Kind} {t u : Token} (ht : Gives k t) (hu : Gives k u)
    (xs ys zs : List Token)
    (accepted : (((xs ++ t :: ys).foldl State.step
        (flagged (xs ++ t :: ys ++ u :: zs))).step u).draft.errors =
      ((xs ++ t :: ys).foldl State.step (flagged (xs ++ t :: ys ++ u :: zs))).draft.errors) :
    (reading (xs ++ t :: ys ++ u :: zs)).report.classes =
      (reading (xs ++ ys ++ u :: zs)).report.classes := by
  have flags : flagged (xs ++ t :: ys ++ u :: zs) = flagged (xs ++ ys ++ u :: zs) := by
    rw [List.append_assoc, List.cons_append, flagged_without (isFlag_of_gives ht),
      List.append_assoc]
  have same : (flagged (xs ++ t :: ys ++ u :: zs)).detached =
      ((xs ++ t :: ys).foldl State.step (flagged (xs ++ t :: ys ++ u :: zs))).detached :=
    (kept_foldl State.detached State.detached_step _ _).symm
  have later := (State.writes_of_gives (flagged (xs ++ t :: ys ++ u :: zs)) ht).subset
    (State.writes_of_gives _ hu) accepted
  rw [← same] at later
  have classes : (run (xs ++ t :: ys ++ u :: zs)).draft.classes =
      (run (xs ++ ys ++ u :: zs)).draft.classes := by
    rw [classes_run, ClassMap.after_flatMap_without _ _ later, flags, ← classes_run]
  have detached : (run (xs ++ t :: ys ++ u :: zs)).detached =
      (run (xs ++ ys ++ u :: zs)).detached := by
    unfold run
    rw [kept_foldl State.detached State.detached_step,
      kept_foldl State.detached State.detached_step]
    exact congrArg State.detached flags
  exact congrArg ClassMap.classes (State.classes_finish_congr detached classes)

end Inspector.Position
