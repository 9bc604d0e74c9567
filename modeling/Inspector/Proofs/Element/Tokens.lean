import Inspector.Proofs.Appearance.Outcome
import Inspector.Proofs.Fill.Outcome
import Inspector.Proofs.Layout.Outcome
import Inspector.Proofs.Position.Outcome
import Inspector.Proofs.Stroke.Outcome

/-!
# What one token does, in every property

Every property string is read token by token, and a token is refused as a whole: the error says
that it was, and nothing else tells. A token that is given twice in a row leaves what it left the
first time, and has nothing more to say if it was taken then.

    Group.strip? t.text = none → view.AllOrNothing s (s.step t)        (plain_tokens_act_as_a_whole)
    ((s.step t).step t).draft.classes = (s.step t).draft.classes           (repeated_tokens_settle)
-/

namespace Inspector.Element

open Text

/-- A token that is no group is refused with one error, and then nothing but what has been seen is
different; a position heeds it while the flags are read or afterwards, not both times. A token that
is not known has one warning, and then nothing else is different. -/
theorem plain_tokens_act_as_a_whole {input : Text} {t : Token} (ht : t ∈ tokenize input) :
    (Group.strip? t.text = none →
      (∀ mode s, Layout.view.AllOrNothing s (s.step mode t)) ∧
      (∀ s, Position.view.AllOrNothing s (s.readFlag t) ∧
        Position.view.AllOrNothing s (s.step t)) ∧
      (∀ s, Appearance.view.AllOrNothing s (s.step t)) ∧
      (∀ s, Fill.view.AllOrNothing s (s.step t)) ∧
      ∀ s, Stroke.view.AllOrNothing s (s.step t)) ∧
    ((∀ s : Position.State, s.readFlag t = s) ∨ ∀ s : Position.State, s.step t = s) ∧
    (∀ mode s, Layout.view.NotedAlone Layout.Warning.isUnknown Layout.State.warn s
      (s.step mode t)) ∧
    (∀ s, Position.view.NotedAlone Position.Warning.isUnknown Position.State.warn s (s.step t)) ∧
    (∀ s, Appearance.view.NotedAlone Appearance.Warning.isUnknown Appearance.State.warn s
      (s.step t)) ∧
    (∀ s, Fill.view.NotedAlone Fill.Warning.isUnknown Fill.State.warn s (s.step t)) ∧
    ∀ s, Stroke.view.NotedAlone Stroke.Warning.isUnknown Draft.warn s (s.step t) := by
  refine ⟨fun plain => ⟨fun mode s => ?_, fun s => ⟨?_, ?_⟩, fun s => ?_, fun s => ?_, fun s => ?_⟩,
    ?_, fun mode s => s.notedAlone_step mode t, fun s => s.notedAlone_step t,
    fun s => s.notedAlone_step t, fun s => s.notedAlone_step t,
    fun s => Stroke.State.notedAlone_step s t⟩
  · exact (s.outcome_step mode ht plain).allOrNothing
  · exact (s.outcome_readFlag t).allOrNothing
  · exact (s.outcome_step ht plain).allOrNothing
  · exact (s.outcome_step plain).allOrNothing
  · exact (s.outcome_step t).allOrNothing
  · exact (Stroke.State.outcome_step s plain).allOrNothing
  · cases flag : Position.isFlag t with
    | true => exact .inr fun s => s.step_of_isFlag flag
    | false => exact .inl fun s => s.readFlag_of_not_isFlag flag

/-- A gap that is no length is refused by a layout, and an appearance does not know it. -/
theorem wide_gap_acts_as_a_whole :
    .pair "gap" "wide" ∈ tokenize "gap=wide" ∧ Group.strip? "wide" = none ∧
      Layout.view.AllOrNothing {} (Layout.State.step .auto {} (.pair "gap" "wide")) ∧
      Appearance.view.NotedAlone Appearance.Warning.isUnknown Appearance.State.warn {}
        (Appearance.State.step {} (.pair "gap" "wide")) := by
  have mem : .pair "gap" "wide" ∈ tokenize "gap=wide" := by decide
  have plain : Group.strip? "wide" = none := by decide
  obtain ⟨whole, -, -, -, unknown, -⟩ := plain_tokens_act_as_a_whole mem
  exact ⟨mem, plain, (whole plain).1 .auto {}, unknown {}⟩

/-- A token that is given twice in a row leaves the classes of the first time, in the same order;
in a fill the order may change. If it is no group and was read and taken the first time, the second
time there is nothing to report. -/
theorem repeated_tokens_settle {input : Text} {t : Token} (ht : t ∈ tokenize input) :
    ((∀ mode (s : Layout.State),
        ((s.step mode t).step mode t).draft.classes = (s.step mode t).draft.classes) ∧
      (∀ s : Position.State,
        ((s.readFlag t).readFlag t).draft.classes = (s.readFlag t).draft.classes ∧
        ((s.step t).step t).draft.classes = (s.step t).draft.classes) ∧
      (∀ s : Appearance.State, ((s.step t).step t).draft.classes = (s.step t).draft.classes) ∧
      (∀ s : Stroke.State, ((s.step t).step t).classes = (s.step t).classes) ∧
      ∀ (s : Fill.State) (k : Fill.Concern),
        ((s.step t).step t).draft.classes.get? k = (s.step t).draft.classes.get? k) ∧
    (Group.strip? t.text = none →
      (∀ mode s, Layout.view.Accepts Layout.Warning.isUnread s (s.step mode t) →
        Layout.view.Silent (s.step mode t) ((s.step mode t).step mode t)) ∧
      (∀ s, Position.view.Accepts Position.Warning.isUnread s (s.readFlag t) →
        Position.view.Silent (s.readFlag t) ((s.readFlag t).readFlag t)) ∧
      (∀ s, Position.view.Accepts Position.Warning.isUnread s (s.step t) →
        Position.view.Silent (s.step t) ((s.step t).step t)) ∧
      (∀ s, Appearance.view.Accepts Appearance.Warning.isUnread s (s.step t) →
        Appearance.view.Silent (s.step t) ((s.step t).step t)) ∧
      (∀ s, Stroke.view.Accepts Stroke.Warning.isUnread s (s.step t) →
        Stroke.view.Silent (s.step t) ((s.step t).step t)) ∧
      ∀ s, Fill.view.Accepts Fill.Warning.isUnknown s (s.step t) →
        Fill.view.Silent (s.step t) ((s.step t).step t)) := by
  refine ⟨⟨fun mode s => s.classes_step_step mode t, fun s => ⟨?_, s.classes_step_step t⟩,
    fun s => ?_, fun s => ?_, fun s k => s.get?_step_step t k⟩, fun plain => ⟨fun mode s => ?_,
    fun s => ?_, fun s => ?_, fun s => ?_, fun s => ?_, fun s => ?_⟩⟩
  · rw [Position.State.classes_readFlag]
  · rw [Appearance.State.classes_step, Appearance.State.classes_step, ClassMap.after_after]
  · rw [Stroke.State.classes_step, Stroke.State.classes_step, ClassMap.after_after]
  · exact (s.outcome_step mode ht plain).silent
  · exact (s.outcome_readFlag t).silent
  · exact (s.outcome_step ht plain).silent
  · exact (s.outcome_step plain).silent
  · exact (Stroke.State.outcome_step s plain).silent
  · exact (s.outcome_step t).silent

/-- A column that is asked for twice. -/
theorem column_settles :
    .pair "flow" "column" ∈ tokenize "flow=column" ∧ Group.strip? "column" = none ∧
      Layout.view.Accepts Layout.Warning.isUnread {}
        (Layout.State.step .auto {} (.pair "flow" "column")) ∧
      Layout.view.Silent (Layout.State.step .auto {} (.pair "flow" "column"))
        ((Layout.State.step .auto {} (.pair "flow" "column")).step .auto
          (.pair "flow" "column")) := by
  have mem : .pair "flow" "column" ∈ tokenize "flow=column" := by decide
  have plain : Group.strip? "column" = none := by decide
  have accepted : Layout.view.Accepts Layout.Warning.isUnread {}
      (Layout.State.step .auto {} (.pair "flow" "column")) := ⟨by decide, by decide⟩
  obtain ⟨-, settled⟩ := repeated_tokens_settle mem
  exact ⟨mem, plain, accepted, (settled plain).1 .auto {} accepted⟩

end Inspector.Element
