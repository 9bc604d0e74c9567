import Inspector.Proofs.Outcome
import Inspector.Proofs.Position.Flags
import Inspector.Proofs.Token

/-!
# What one token does to a position

A token acts while the flags are read or afterwards, but not both times. Which classes it updates
hangs on nothing but whether the element is detached, and that no token changes afterwards. A token
that is no group is refused, or not read, or taken; and a token that is not known has that one
warning.

    (s.step t).draft.classes = s.draft.classes.after (updates s.detached t)       (classes_step)
    t ∈ tokenize input → Group.strip? t.text = none → Outcome view Warning.isUnread (·.step t) s
                                                                                  (outcome_step)
-/

namespace Inspector.Position

open Text

/-- Beside its draft, a position says whether the element is detached. -/
def view : View State Concern Error Warning Bool where
  draft := State.draft
  meaning := State.detached

/-- The warnings about what could not be read. -/
def Warning.isUnread : Warning → Bool
  | .unknownConstraint _ | .unknownKey _ | .unrecognized _ => true
  | _ => false

/-- The warnings about a whole token that is not known, or its key. -/
def Warning.isUnknown : Warning → Bool
  | .unknownKey _ | .unrecognized _ => true
  | _ => false

/-! ## Updates -/

/-- What a turn changes in the classes. -/
def Turn.updates : Turn → List (ClassMap.Update Concern)
  | .upright => [.erase .rotate]
  | .flipX => [.insert .flipX "-scale-x-100"]
  | .flipY => [.insert .flipY "-scale-y-100"]
  | .angle degrees =>
    match Angle.class? degrees with
    | some c => [.set .rotate [c]]
    | none => [.erase .rotate]

def rotationUpdates : Token → List (ClassMap.Update Concern)
  | .bare text => (Turn.ofText? text).elim [] Turn.updates
  | .pair _ _ => []

def Constraint.updates : Constraint → List (ClassMap.Update Concern)
  | .on axis value => (constraint? axis value).elim [] fun cs => [.set (.place axis) cs]
  | .unknown _ => []

def Placement.updates : Placement → List (ClassMap.Update Concern)
  | .edge value => (edge? value).elim [] fun p => [.set (.place p.1) [p.2]]
  | .offset axis value =>
    (Fragment.ofLength? value).elim [] fun f => [.set (.place axis) [offsetLead axis ++ f]]
  | .constrain items => items.flatMap Constraint.updates

namespace Entry

/-- What an entry changes in the classes. -/
def updates (detached : Bool) : Entry → List (ClassMap.Update Concern)
  | .placement _ p => if detached then p.updates else []
  | .rotation items => items.flatMap rotationUpdates
  | .depth value => (depthClass? value).elim [] fun c => [.set .depth [c]]
  | .flag | .unknownKey _ | .unrecognized _ => []

/-- The warning about an entry that is not known. -/
def unknowns : Entry → List Warning
  | .unknownKey key => [.unknownKey key]
  | .unrecognized text => [.unrecognized text]
  | _ => []

/-- The entry has one item at most, if it has items; a rotation has one. -/
def IsSingle : Entry → Prop
  | .placement _ (.constrain items) => items.length ≤ 1
  | .rotation items => ∃ i, items = [i]
  | _ => True

theorem rotationItems_of_plain {value : Text} (h : Group.strip? value = none) :
    rotationItems value = [.bare value] := by
  rw [rotationItems]
  split
  · rfl
  · next inner h' =>
    rw [h] at h'
    cases h'

theorem IsSingle.ite {c : Prop} [Decidable c] {e e' : Entry} (h : e.IsSingle) (h' : e'.IsSingle) :
    (if c then e else e').IsSingle :=
  iteInduction (motive := IsSingle) (fun _ => h) fun _ => h'

/-- A token that is no group has no more than one item. -/
theorem isSingle_ofToken {input : Text} {t : Token} (ht : t ∈ tokenize input)
    (plain : Group.strip? t.text = none) : (ofToken t).IsSingle := by
  cases t with
  | bare text =>
    exact .ite True.intro (.ite True.intro (.ite ⟨.bare text, rfl⟩ True.intro))
  | pair key value =>
    have plain : Group.strip? value = none := plain
    have rotation : (Entry.rotation (rotationItems value)).IsSingle :=
      ⟨.bare value, rotationItems_of_plain plain⟩
    have items : (tokenize ((Group.strip? value).getD value)).length ≤ 1 := by
      rw [plain, Option.getD_none]
      rcases tokenize_of_mem_pair ht with h | h <;> simp [h]
    have constraints : (Entry.placement (.pair key value) (.constrain
        ((tokenize ((Group.strip? value).getD value)).map Constraint.ofToken))).IsSingle :=
      (List.length_map _).trans_le items
    exact .ite True.intro (.ite rotation (.ite True.intro (.ite True.intro (.ite True.intro
      (.ite (Nat.le_refl 1) (.ite (Nat.le_refl 1) (.ite constraints (.ite True.intro
        True.intro))))))))

end Entry

namespace State

variable (s : State)

/-! ## Classes -/

theorem classes_setTurn (t : Turn) :
    (s.setTurn t).draft.classes = s.draft.classes.after t.updates := by
  cases t with
  | angle degrees =>
    simp only [setTurn, Turn.updates]
    cases Angle.class? degrees with
    | none => rfl
    | some c => exact Draft.classes_put _ _ _ _
  | _ => rfl

theorem classes_setRotationItem (i : Token) :
    (s.setRotationItem i).draft.classes = s.draft.classes.after (rotationUpdates i) := by
  cases i with
  | bare text =>
    simp only [setRotationItem, rotationUpdates]
    cases Turn.ofText? text with
    | none => rfl
    | some t => exact s.classes_setTurn t
  | pair key value => rfl

theorem classes_setConstraint (c : Constraint) :
    (s.setConstraint c).draft.classes = s.draft.classes.after c.updates := by
  cases c with
  | on axis value =>
    simp only [setConstraint, Constraint.updates]
    cases constraint? axis value with
    | none => rfl
    | some cs => exact Draft.classes_put _ _ _ _
  | unknown item => rfl

theorem classes_setPlacement (p : Placement) :
    (s.setPlacement p).draft.classes = s.draft.classes.after p.updates := by
  cases p with
  | edge value =>
    simp only [setPlacement, Placement.updates]
    cases edge? value with
    | none => rfl
    | some p => exact Draft.classes_put _ _ _ _
  | offset axis value =>
    simp only [setPlacement, Placement.updates]
    cases Fragment.ofLength? value with
    | none => rfl
    | some f => exact Draft.classes_put _ _ _ _
  | constrain items =>
    exact ClassMap.after_foldl (fun s : State => s.draft.classes) classes_setConstraint items s

theorem classes_apply (e : Entry) :
    (s.apply e).draft.classes = s.draft.classes.after (e.updates s.detached) := by
  cases e with
  | placement token p =>
    simp only [apply, Entry.updates]
    split
    · exact s.classes_setPlacement p
    · rfl
  | rotation items =>
    exact ClassMap.after_foldl (fun s : State => s.draft.classes) classes_setRotationItem items
      { s with rotationSeen := true }
  | depth value =>
    simp only [apply, setDepth, Entry.updates]
    cases depthClass? value with
    | none => rfl
    | some c => exact Draft.classes_put _ _ _ _
  | _ => rfl

theorem classes_step_step (t : Token) :
    ((s.step t).step t).draft.classes = (s.step t).draft.classes := by
  have updates (s : State) := s.classes_apply (Entry.ofToken t)
  have detached : (s.apply (Entry.ofToken t)).detached = s.detached := s.detached_step t
  simp only [step]
  rw [updates, detached, updates, ClassMap.after_after]

/-! ## Warnings -/

theorem noted_setRotationItem (i : Token) :
    (s.setRotationItem i).draft.noted Warning.isUnknown = s.draft.noted Warning.isUnknown := by
  unfold setRotationItem
  split
  · split
    · next t _ =>
      cases t with
      | angle degrees =>
        simp only [setTurn]
        split
        · exact Draft.noted_put _ _ _ rfl
        · rfl
      | _ => rfl
    · rfl
  · rfl

theorem noted_place (axis : Axis) (cs : List Text) :
    (s.place axis cs).draft.noted Warning.isUnknown = s.draft.noted Warning.isUnknown :=
  Draft.noted_put _ _ _ rfl

theorem noted_setConstraint (c : Constraint) :
    (s.setConstraint c).draft.noted Warning.isUnknown = s.draft.noted Warning.isUnknown := by
  unfold setConstraint
  split
  · split
    · exact s.noted_place _ _
    · rfl
  · exact Draft.noted_warn_of_neg _ rfl

theorem noted_setPlacement (p : Placement) :
    (s.setPlacement p).draft.noted Warning.isUnknown = s.draft.noted Warning.isUnknown := by
  cases p with
  | constrain items =>
    exact kept_foldl (fun s : State => s.draft.noted Warning.isUnknown) noted_setConstraint items s
  | _ =>
    simp only [setPlacement]
    split
    · exact s.noted_place _ _
    · rfl

theorem noted_apply (e : Entry) : (s.apply e).draft.noted Warning.isUnknown =
    s.draft.noted Warning.isUnknown ++ e.unknowns := by
  cases e with
  | placement token p =>
    simp only [apply, Entry.unknowns, List.append_nil]
    split
    · exact s.noted_setPlacement p
    · rfl
  | rotation items =>
    simp only [apply, Entry.unknowns, List.append_nil]
    exact kept_foldl (fun s : State => s.draft.noted Warning.isUnknown) noted_setRotationItem items
      { s with rotationSeen := true }
  | depth value =>
    simp only [apply, setDepth, Entry.unknowns, List.append_nil]
    split
    · exact Draft.noted_put _ _ _ rfl
    · rfl
  | flag => exact (List.append_nil _).symm
  | unknownKey key => exact Draft.noted_warn_of_pos _ rfl
  | unrecognized text => exact Draft.noted_warn_of_pos _ rfl

/-- An entry that is not known has that one warning. -/
theorem apply_of_unknowns {e : Entry} (h : e.unknowns ≠ []) :
    ∃ w, Warning.isUnknown w ∧ s.apply e = s.warn w := by
  cases e with
  | unknownKey key => exact ⟨.unknownKey key, rfl, rfl⟩
  | unrecognized text => exact ⟨.unrecognized text, rfl, rfl⟩
  | _ => exact absurd rfl h

/-- A token that is not known has that one warning and changes nothing else. -/
theorem notedAlone_step (t : Token) :
    view.NotedAlone Warning.isUnknown warn s (s.step t) := by
  have single (e : Entry) (he : e ∈ [Entry.ofToken t]) (_ : e.unknowns ≠ []) :
      [Entry.ofToken t] = [e] := by rw [List.mem_singleton.1 he]
  exact View.notedAlone_foldl (g := apply) noted_apply single fun _ hu => s.apply_of_unknowns hu

/-! ## Outcomes -/

theorem outcome_readFlag (t : Token) : Outcome view Warning.isUnread (·.readFlag t) s := by
  by_cases valid : flagErrors t = []
  · refine .settled ?_ ?_
    · show (s.readFlag t).draft.errors = s.draft.errors
      rw [errors_readFlag, valid, List.append_nil]
    · simp only [readFlag_eq, valid, List.append_nil]
      cases flagValue? t <;> simp
  · cases t with
    | bare text => exact absurd rfl valid
    | pair key value =>
      have refused : isFlagKey (lower key) ∧ toggle? value = none := by
        simpa [flagErrors] using valid
      exact .refused_of_eq
        (({ s with flagSeen := true } : State).error (.invalidFlag key value))
        (by simp only [readFlag, if_pos refused.1, refused.2]) rfl rfl

theorem errors_setTurn (t : Turn) : (s.setTurn t).draft.errors = s.draft.errors := by
  cases t with
  | angle degrees =>
    simp only [setTurn]
    split
    · exact Draft.errors_put _ _ _ _
    · rfl
  | _ => rfl

theorem setTurn_setTurn (t : Turn) : (s.setTurn t).setTurn t = s.setTurn t := by
  cases t with
  | upright => simp only [setTurn, Draft.erase_erase]
  | flipX => simp only [setTurn, Draft.insert_insert]
  | flipY => simp only [setTurn, Draft.insert_insert]
  | angle degrees =>
    simp only [setTurn]
    cases Angle.class? degrees with
    | none => simp only [Draft.erase_erase]
    | some c => simp only [Draft.put_put]

theorem outcome_setRotationItem (i : Token) :
    Outcome view Warning.isUnread (·.setRotationItem i) s := by
  cases i with
  | bare text =>
    cases h : Turn.ofText? text with
    | none =>
      exact .refused_of_eq (s.error (.invalidRotation (.bare text)))
        (by simp only [setRotationItem, h]) rfl rfl
    | some t =>
      have turned (s : State) : s.setRotationItem (.bare text) = s.setTurn t := by
        simp only [setRotationItem, h]
      refine .settled ?_ ?_
      · simp only [turned]
        exact s.errors_setTurn t
      · simp only [turned, setTurn_setTurn]
  | pair key value => exact .refused (.invalidRotation (.pair key value)) rfl rfl

theorem place_place (axis : Axis) (cs : List Text) :
    (s.place axis cs).place axis cs = s.place axis cs :=
  congrArg (fun d => { s with draft := d }) (Draft.put_put _ _ _ _ _)

/-- A place is taken for good. -/
theorem outcome_place {f : State → State} (axis : Axis) (cs : List Text)
    (h : ∀ s, f s = s.place axis cs) : Outcome view Warning.isUnread f s := by
  refine .settled ?_ ?_
  · rw [h]
    exact Draft.errors_put _ _ _ _
  · rw [h, h, place_place]

theorem outcome_setConstraint (c : Constraint) :
    Outcome view Warning.isUnread (·.setConstraint c) s := by
  cases c with
  | on axis value =>
    cases h : constraint? axis value with
    | none =>
      exact .refused_of_eq (s.error (.invalidConstraint axis value))
        (by simp only [setConstraint, h]) rfl rfl
    | some cs => exact s.outcome_place axis cs fun s => by simp only [setConstraint, h]
  | unknown item => exact .unread (.unknownConstraint item) rfl rfl

theorem outcome_setPlacement {token : Token} {p : Placement}
    (single : (Entry.placement token p).IsSingle) :
    Outcome view Warning.isUnread (·.setPlacement p) s := by
  cases p with
  | edge value =>
    cases h : edge? value with
    | none =>
      exact .refused_of_eq (s.error (.invalidEdge value)) (by simp only [setPlacement, h])
        rfl rfl
    | some place =>
      exact s.outcome_place place.1 [place.2] fun s => by simp only [setPlacement, h]
  | offset axis value =>
    cases h : Fragment.ofLength? value with
    | none =>
      exact .refused_of_eq (s.error (.invalidOffset axis value))
        (by simp only [setPlacement, h]) rfl rfl
    | some f =>
      exact s.outcome_place axis [offsetLead axis ++ f] fun s => by simp only [setPlacement, h]
  | constrain items => exact .foldl single fun c _ => s.outcome_setConstraint c

theorem outcome_apply {e : Entry} (single : e.IsSingle) :
    Outcome view Warning.isUnread (·.apply e) s := by
  cases e with
  | flag => exact .unchanged rfl
  | placement token p =>
    by_cases hd : s.detached
    · have detached : (s.setPlacement p).detached = true :=
        (congrArg (fun m => m.1) (s.marks_setPlacement p)).trans hd
      exact (s.outcome_setPlacement single).congr rfl rfl (if_pos hd) (if_pos detached)
    · exact .refused_of_eq (s.error (.notDetached token)) (if_neg hd) rfl rfl
  | rotation items =>
    obtain ⟨i, rfl⟩ := single
    let seen : State := { s with rotationSeen := true }
    have stays : (seen.setRotationItem i).rotationSeen = true :=
      congrArg (fun m => m.2.2) (seen.marks_setRotationItem i)
    have same : { seen.setRotationItem i with rotationSeen := true } = seen.setRotationItem i := by
      rw [← stays]
    exact (seen.outcome_setRotationItem i).congr rfl rfl rfl (congrArg (·.setRotationItem i) same)
  | depth value =>
    cases h : depthClass? value with
    | none =>
      exact .refused_of_eq (s.error (.invalidDepth value)) (by simp only [apply, setDepth, h])
        rfl rfl
    | some c =>
      refine .settled ?_ ?_
      · simp only [view, apply, setDepth, h, Draft.errors_put]
      · simp only [apply, setDepth, h, Draft.put_put]
  | unknownKey key => exact .unread (.unknownKey key) rfl rfl
  | unrecognized text => exact .unread (.unrecognized text) rfl rfl

theorem outcome_step {input : Text} {t : Token} (ht : t ∈ tokenize input)
    (plain : Group.strip? t.text = none) : Outcome view Warning.isUnread (·.step t) s :=
  s.outcome_apply (Entry.isSingle_ofToken ht plain)

end State

end Inspector.Position
