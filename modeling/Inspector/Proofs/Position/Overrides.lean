import Inspector.Proofs.Draft.Overrides
import Inspector.Proofs.Position.Placement

/-!
# Overrides in a position

The depth of a position and its place on either axis are never taken back, only overridden; an angle
can be taken back. A place is accepted for a detached element only, and one token can give several
of them. So the report tells of the depth and of each axis how often the accepted values change. The
layer that a detached element without a depth gets at the end is no value.

    the draft of run ts follows the accepted values of ts                             (follows_run)
    the report tells the changes of the accepted values                    (tellsChanges_reading)
-/

namespace Inspector.Position

open Text

/-! ## Accepted values -/

/-- The kinds of values that nothing but a value of the same kind replaces. -/
inductive Lasting where
  | depth
  | place (axis : Axis)
  deriving DecidableEq, Repr

def Lasting.concern : Lasting → Concern
  | .depth => .depth
  | .place axis => .place axis

def Lasting.superseded : Lasting → Superseded
  | .depth => .depth
  | .place axis => .place axis

/-- The classes that an entry gives to a kind, one list for each value that is accepted. -/
def Entry.classes (detached : Bool) : Lasting → Entry → List (List Text)
  | .depth, e => (e.depth?.map fun c => [c]).toList
  | .place axis, e => if detached then e.demands axis else []

/-- The classes of the accepted values of a kind, one after the other. -/
def accepted (k : Lasting) (ts : List Token) : List (List Text) :=
  ts.flatMap fun t => (Entry.ofToken t).classes (flagged ts).detached k

/-! ## Steps -/

namespace State

/-- The state has of this kind what the values leave. -/
abbrev Follows (k : Lasting) (vs : List (List Text)) (s : State) : Prop :=
  Draft.Follows k.concern (.superseded k.superseded) vs s.draft

variable {s : State} {vs : List (List Text)} {axis : Axis}

theorem follows_place (h : s.Follows (.place axis) vs) (a : Axis) (cs : List Text) :
    (s.place a cs).Follows (.place axis) (vs ++ if a = axis then [cs] else []) := by
  by_cases own : a = axis
  · subst own
    rw [if_pos rfl]
    exact h.put cs
  · rw [if_neg own, List.append_nil]
    exact h.put_other (by simpa [Lasting.concern] using Ne.symm own)
      (by simpa [Lasting.superseded] using own) cs

theorem follows_setConstraint (h : s.Follows (.place axis) vs) (c : Constraint) :
    (s.setConstraint c).Follows (.place axis) (vs ++ (c.demand? axis).toList) := by
  cases c with
  | on a value =>
    simp only [setConstraint, Constraint.demand?]
    cases constraint? a value with
    | none => simpa [error] using h.error _
    | some cs => simpa [apply_ite Option.toList] using follows_place h a cs
  | unknown item =>
    rw [Constraint.demand?, Option.toList_none, List.append_nil]
    exact h.warn (by rintro ⟨⟩)

theorem follows_setPlacement (h : s.Follows (.place axis) vs) (p : Placement) :
    (s.setPlacement p).Follows (.place axis) (vs ++ p.demands axis) := by
  cases p with
  | edge value =>
    simp only [setPlacement, Placement.demands]
    cases edge? value with
    | none => simpa [error] using h.error _
    | some place =>
      obtain ⟨a, c⟩ := place
      have placed := follows_place h a [c]
      by_cases own : a = axis <;> simpa [own, Option.filter_some] using placed
  | offset a value =>
    simp only [setPlacement, Placement.demands]
    cases Fragment.ofLength? value with
    | none => simpa [error] using h.error _
    | some f => simpa using follows_place h a [offsetLead a ++ f]
  | constrain items =>
    rw [setPlacement, Placement.demands, List.filterMap_eq_flatMap_toList]
    exact tracked_foldl (R := fun (s : State) vs => s.Follows (.place axis) vs)
      (fun c _ h => follows_setConstraint h c) h

theorem follows_apply {k : Lasting} (h : s.Follows k vs) (e : Entry) :
    (s.apply e).Follows k (vs ++ e.classes s.detached k) := by
  have other (hf : k.concern.family ≠ e.family) (nothing : e.classes s.detached k = []) :
      (s.apply e).Follows k (vs ++ e.classes s.detached k) := by
    have within : k.superseded.family = k.concern.family := by cases k <;> rfl
    rw [nothing, List.append_nil]
    exact .of_part rfl within (congrArg State.draft ((acts_apply e).elsewhere hf s)) h
  cases e with
  | placement token p =>
    cases k with
    | depth => exact other (by rintro ⟨⟩) rfl
    | place axis =>
      simp only [apply, Entry.classes]
      split
      · exact follows_setPlacement h p
      · simpa [error] using h.error _
  | depth value =>
    cases k with
    | depth =>
      simp only [apply, setDepth, Entry.classes, Entry.depth?]
      cases depthClass? value with
      | none => simpa [error] using h.error _
      | some c => exact h.put [c]
    | place axis => exact other (by rintro ⟨⟩) (ite_self _)
  | flag | rotation | unknownKey | unrecognized =>
    cases k with
    | depth => exact other (by rintro ⟨⟩) rfl
    | place axis => exact other (by rintro ⟨⟩) (ite_self _)

theorem noted_finish (s : State) {p : Warning → Bool} (relative : p .madeRelative = false) :
    s.finish.draft.noted p = s.draft.noted p := by
  rw [draft_finish]
  unfold framed
  dsimp only
  split_ifs <;> first | rfl | exact Draft.noted_warn_of_neg _ relative

end State

/-! ## Runs -/

theorem follows_run (k : Lasting) (ts : List Token) : (run ts).Follows k (accepted k ts) := by
  have start : (flagged ts).Follows k [] := by
    refine .start (classes_flagged ts) ?_
    have warnings : (flagged ts).draft.warnings = [] :=
      kept_foldl (fun s : State => s.draft.warnings) (fun s t => by rw [State.readFlag_eq]) ts {}
    rw [warnings]
    exact List.forall_mem_nil _
  -- What the flags say is the same for all tokens.
  have followed := tracked_foldl (l := ts) (g := fun t =>
      (Entry.ofToken t).classes (flagged ts).detached k)
    (R := fun (s : State) vs => s.detached = (flagged ts).detached ∧ s.Follows k vs)
    (fun t _ ⟨flags, h⟩ => ⟨(State.detached_step _ t).trans flags,
      flags ▸ State.follows_apply h (Entry.ofToken t)⟩) ⟨rfl, start⟩
  exact followed.2

/-! ## Reports -/

def Superseded.all : List Superseded :=
  [.rotation, .place .horizontal, .place .vertical, .depth]

theorem Superseded.mem_all (k : Superseded) : k ∈ all := by
  cases k with
  | place axis => cases axis <;> decide
  | _ => decide

theorem Superseded.title_injective : Function.Injective Superseded.title := by
  have each : ∀ j ∈ all, ∀ k ∈ all, j.title = k.title → j = k := by decide
  exact fun j k => each j j.mem_all k k.mem_all

/-- An override has a message of its own. -/
theorem Warning.message_eq_superseded_iff (k : Superseded) (w : Warning) :
    w.message = (Warning.superseded k).message ↔ w = .superseded k := by
  refine ⟨fun same => ?_, congrArg message⟩
  have ends : EndsAsOverride w.message := same ▸ endsAsOverride k.title
  cases w with
  | superseded j => rw [Superseded.title_injective (List.append_cancel_right same)]
  | unknownConstraint | unknownKey | unrecognized =>
    exact absurd ends (not_endsAsOverride (by decide))
  | madeRelative => exact absurd ends (by decide)

theorem tellsChanges_reading (k : Lasting) (ts : List Token) :
    (reading ts).report.TellsChanges (overrideLine .position k.superseded.title) (accepted k ts) :=
  (follows_run k ts).tellsChanges (State.noted_finish _ (by simp)) .position Error.message
    (Warning.message_eq_superseded_iff k.superseded)

end Inspector.Position
