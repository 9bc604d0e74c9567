import Inspector.Proofs.Draft.Overrides
import Inspector.Proofs.Layout.Paddings
import Inspector.Proofs.Layout.Required
import Inspector.Proofs.Layout.Wrap

/-!
# Overrides in a layout

The six dimensions of a layout, its spacing on either axis and its flow are never taken back, only
overridden; paddings take the place of each other, and a gap can be shared out. The mode decides which
of the values are accepted. So the report tells of each, in either mode, how often the accepted
values change.

    the draft of run r follows the accepted values of its tokens                      (follows_run)
    the report tells the changes of the accepted values                    (tellsChanges_reading)
-/

namespace Inspector.Layout

open Text

/-! ## Accepted values -/

/-- The kinds of values that nothing but a value of the same kind replaces. -/
inductive Lasting where
  | size (d : Dimension)
  | spacing (axis : Spacing)
  | flow
  deriving DecidableEq, Repr

def Lasting.concern : Lasting → Concern
  | .size d => .size d
  | .spacing axis => .spacing axis
  | .flow => .flow

def Lasting.superseded : Lasting → Superseded
  | .size d => .size d
  | .spacing axis => .spacing axis
  | .flow => .flow

/-- The classes that an entry gives to a kind, if the mode has it and the value is valid; of the words
of a flow, a wrap gives no direction. -/
def Entry.classes? (mode : Mode) : Lasting → Entry → Option (List Text)
  | .size d, .size _ d' value =>
    if d'.isBound && mode != .auto then none
    else if d' = d then (Fragment.ofSize? value).map fun f => [d.short ++ "-" ++ f]
    else none
  | .spacing axis, .spacing _ axis' value =>
    if mode = .auto then none
    else if axis' = axis then (Fragment.ofExtent? value).map fun f => [axis.name ++ "-" ++ f]
    else none
  | .flow, .auto _ (.flow value) =>
    if mode = .auto then
      ((FlowWord.ofText? value).bind FlowWord.flow?).map fun f => [flowClass f]
    else none
  | _, _ => none

/-- The classes of the accepted values of a kind, one after the other. -/
def accepted (mode : Mode) (k : Lasting) (ts : List Token) : List (List Text) :=
  (ts.flatMap Entry.ofToken).filterMap (Entry.classes? mode k)

/-! ## Steps -/

namespace State

/-- The state has of this kind what the values leave. -/
abbrev Follows (k : Lasting) (vs : List (List Text)) (s : State) : Prop :=
  Draft.Follows k.concern (.superseded k.superseded) vs s.draft

variable {s : State} {vs : List (List Text)}

theorem follows_setDirection (h : s.Follows .flow vs) (f : Flow) :
    (s.setDirection f).Follows .flow (vs ++ [[flowClass f]]) := by
  rw [setDirection_eq]
  exact h.put [flowClass f]

theorem follows_setFlow (h : s.Follows .flow vs) (value : Text) : (s.setFlow value).Follows .flow
    (vs ++ (((FlowWord.ofText? value).bind FlowWord.flow?).map fun f => [flowClass f]).toList) := by
  rw [setFlow_eq]
  cases FlowWord.ofText? value with
  | none => simpa [error] using h.error _
  | some w =>
    cases w with
    | row => exact follows_setDirection h .row
    | column =>
      have discarded : State.Follows .flow vs
          { s with flowSeen := true, draft := s.draft.discard .wrap .wrapRemoved } :=
        h.discard_other (by decide) (by decide)
      exact follows_setDirection discarded .column
    | wrap =>
      simp only [FlowWord.flow?, Option.bind_some, Option.map_none, Option.toList_none,
        List.append_nil, setWrap]
      split
      · exact h.insert_other (by decide) _
      · exact h.error _

theorem follows_setSize {d : Dimension} (h : s.Follows (.size d) vs) (d' : Dimension)
    (value : Text) : (s.setSize d' value).Follows (.size d) (vs ++
      (if d' = d then (Fragment.ofSize? value).map fun f => [d.short ++ "-" ++ f]
        else none).toList) := by
  have seen : (s.see d').Follows (.size d) vs := by
    rw [Follows, draft_see]
    exact h
  unfold setSize
  by_cases own : d' = d
  · subst own
    rw [if_pos rfl]
    cases Fragment.ofSize? value with
    | none => simpa [error] using seen.error _
    | some f => exact seen.put _
  · rw [if_neg own, Option.toList_none, List.append_nil]
    cases Fragment.ofSize? value with
    | none => exact seen.error _
    | some f =>
      exact seen.put_other (by simpa [Lasting.concern] using Ne.symm own)
        (by simpa [Lasting.superseded] using own) _

theorem follows_setSpacing {axis : Spacing} (h : s.Follows (.spacing axis) vs) (axis' : Spacing)
    (value : Text) : (s.setSpacing axis' value).Follows (.spacing axis) (vs ++
      (if axis' = axis then (Fragment.ofExtent? value).map fun f => [axis.name ++ "-" ++ f]
        else none).toList) := by
  unfold setSpacing
  by_cases own : axis' = axis
  · subst own
    rw [if_pos rfl]
    cases Fragment.ofExtent? value with
    | none => simpa [error] using h.error _
    | some f => exact h.put _
  · rw [if_neg own, Option.toList_none, List.append_nil]
    cases Fragment.ofExtent? value with
    | none => exact h.error _
    | some f =>
      exact h.put_other (by simpa [Lasting.concern] using Ne.symm own)
        (by simpa [Lasting.superseded] using own) _

theorem follows_apply (mode : Mode) {k : Lasting} (h : s.Follows k vs) {e : Entry}
    (kept : e.KeepsFamily) : (s.apply mode e).Follows k (vs ++ (e.classes? mode k).toList) := by
  have other (hf : k.concern.family ≠ e.family) (none : e.classes? mode k = none) :
      (s.apply mode e).Follows k (vs ++ (e.classes? mode k).toList) := by
    have within : k.superseded.family = k.concern.family := by cases k <;> rfl
    rw [none, Option.toList_none, List.append_nil]
    exact .of_part rfl within (congrArg State.draft ((acts_apply mode kept).elsewhere hf s)) h
  cases e with
  | marker | clip | unclearClip => cases k <;> exact other (by rintro ⟨⟩) rfl
  | size token d' value =>
    cases k with
    | size d =>
      simp only [apply, Entry.classes?]
      split
      · simpa [error] using h.error _
      · exact follows_setSize h d' value
    | spacing | flow => exact other (by rintro ⟨⟩) rfl
  | spacing token axis' value =>
    cases k with
    | spacing axis =>
      simp only [apply, Entry.classes?]
      split
      · simpa [error] using h.error _
      · exact follows_setSpacing h axis' value
    | size | flow => exact other (by rintro ⟨⟩) rfl
  | auto token a =>
    cases a with
    | flow value =>
      cases k with
      | flow =>
        simp only [apply, Entry.classes?]
        split
        · exact follows_setFlow h value
        · simpa [error] using h.error _
      | size | spacing => exact other (by rintro ⟨⟩) rfl
    | align | gap | settings | padding => cases k <;> exact other (by rintro ⟨⟩) rfl
  | unread u =>
    have none : (Entry.unread u).classes? mode k = none := by cases k <;> rfl
    rw [none, Option.toList_none, List.append_nil]
    exact h.warn (by rintro ⟨⟩)

theorem noted_finish (s : State) (mode : Mode) {p : Warning → Bool}
    (alignment : p .noAlignment = false) (gap : p .noGap = false) :
    (s.finish mode).draft.noted p = s.draft.noted p := by
  by_cases auto : mode = .auto
  · subst auto
    exact s.noted_finish_auto alignment gap
  · rw [s.finish_of_ne_auto auto, Draft.noted, warnings_checkSize]
    rfl

end State

/-! ## Runs -/

theorem follows_run (k : Lasting) (r : Resolution) :
    (run r).Follows k (accepted r.mode k r.tokens) := by
  have start : State.Follows k [] { draft := { warnings := r.advice.toList.map .advice } } := by
    refine .start rfl fun w hw => ?_
    obtain ⟨a, -, rfl⟩ := List.mem_map.1 hw
    rintro ⟨⟩
  have followed := tracked_foldl (R := fun (s : State) vs => s.Follows k vs)
    (l := r.tokens.flatMap Entry.ofToken) (fun e he h => by
      obtain ⟨t, -, ht⟩ := List.mem_flatMap.1 he
      exact State.follows_apply r.mode h (Entry.keepsFamily_of_mem ht)) start
  rw [accepted, List.filterMap_eq_flatMap_toList, run]
  rw [List.foldl_flatMap] at followed
  exact followed

/-! ## Reports -/

theorem Superseded.title_injective : Function.Injective Superseded.title := by
  have each : ∀ j ∈ all, ∀ k ∈ all, j.title = k.title → j = k := by decide +kernel
  exact fun j k => each j j.mem_all k k.mem_all

/-- An override has a message of its own. -/
theorem Warning.message_eq_superseded_iff (k : Superseded) (w : Warning) :
    w.message = (Warning.superseded k).message ↔ w = .superseded k := by
  refine ⟨fun same => ?_, congrArg message⟩
  have ends : EndsAsOverride w.message := same ▸ endsAsOverride k.title
  cases w with
  | advice a => exact absurd ends (by cases a <;> decide)
  | superseded j => rw [Superseded.title_injective (List.append_cancel_right same)]
  | unread u => cases u <;> exact absurd ends (not_endsAsOverride (by decide))
  | wrapRemoved | noAlignment | noGap => exact absurd ends (by decide)
  | paddingReplaced | unknownPadding | unknownSetting | unsupportedSetting =>
    exact absurd ends (not_endsAsOverride (by decide))

theorem tellsChanges_reading (k : Lasting) (r : Resolution) :
    r.reading.report.TellsChanges (overrideLine .layout k.superseded.title)
      (accepted r.mode k r.tokens) :=
  (follows_run k r).tellsChanges (State.noted_finish _ _ (by simp) (by simp)) .layout
    Error.message (Warning.message_eq_superseded_iff k.superseded)

end Inspector.Layout
