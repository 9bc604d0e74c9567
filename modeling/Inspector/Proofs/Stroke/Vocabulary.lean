import Inspector.Proofs.Color
import Inspector.Proofs.Fragment
import Inspector.Proofs.Stroke.Run

/-!
# The classes of a stroke

Each concern of a stroke has one class at a time, of a fixed spelling. All of them begin with the
lead of borders, and none has a blank.

    (run ts).classes.Obeys Shape                                                      (shaped_run)
    c ∈ (read input).classes → BeginsWith leads c                          (beginsWith_of_mem_read)
    k.Spells c → IsSolid c                                                          (Spells.solid)
-/

namespace Inspector.Stroke

open Text

namespace Concern

/-- The classes that a concern may have. -/
def Spells : Concern → Text → Prop
  | .color, c => ∃ value col, Color.ofText? value "border" = some col ∧ c = col.classFor "border"
  | .opacity, c => ∃ value f, Fragment.ofPercent? value = some f ∧ c = "border-opacity-" ++ f
  | .style, c => ∃ w ∈ styleWords, c = "border-" ++ w
  | .weight, c => ∃ value, weightClass? "border" value = some c
  | .side k, c => ∃ value, weightClass? ("border-" ++ k.short) value = some c

end Concern

/-- One class for each concern. -/
abbrev Shape : Concern → List Text → Prop := ClassMap.Single Concern.Spells

/-- How the classes of a stroke begin. -/
def leads : List Text := ["border"]

theorem prefix_weightClass {lead value c : Text} (h : weightClass? lead value = some c) :
    lead <+: c := by
  obtain ⟨px, -, rfl⟩ := Option.map_eq_some_iff.1 h
  split
  · exact List.prefix_refl _
  · split
    · exact ⟨"-" ++ px.spelled, by simp⟩
    · exact ⟨"-" ++ Fragment.inPixels px, by simp⟩

theorem Concern.Spells.beginsWith {k : Concern} {c : Text} (h : k.Spells c) :
    BeginsWith leads c := by
  refine .of_mem (l := "border") List.mem_cons_self ?_
  cases k with
  | color =>
    obtain ⟨value, col, hc, rfl⟩ := h
    exact (List.prefix_append _ _).trans (Color.prefix_classFor hc)
  | opacity =>
    obtain ⟨_, f, _, rfl⟩ := h
    exact ⟨"-opacity-" ++ f, rfl⟩
  | style =>
    obtain ⟨w, -, rfl⟩ := h
    exact ⟨"-" ++ w, rfl⟩
  | weight =>
    obtain ⟨value, hw⟩ := h
    exact prefix_weightClass hw
  | side k =>
    obtain ⟨value, hw⟩ := h
    exact List.IsPrefix.trans ⟨"-" ++ k.short, rfl⟩ (prefix_weightClass hw)

theorem solid_weightClass {lead value c : Text} (solid : IsSolid lead)
    (h : weightClass? lead value = some c) : IsSolid c := by
  obtain ⟨px, -, rfl⟩ := Option.map_eq_some_iff.1 h
  split
  · exact solid
  · split
    · exact isSolid_append.2 ⟨isSolid_append.2 ⟨solid, by decide⟩, px.solid_spelled⟩
    · exact isSolid_append.2 ⟨isSolid_append.2 ⟨solid, by decide⟩, Fragment.solid_inPixels px⟩

theorem Concern.Spells.solid {k : Concern} {c : Text} (h : k.Spells c) : IsSolid c := by
  cases k with
  | color =>
    obtain ⟨_, col, hc, rfl⟩ := h
    exact Color.solid_classFor (by decide) hc
  | opacity =>
    obtain ⟨_, f, hf, rfl⟩ := h
    exact isSolid_append.2 ⟨by decide, Fragment.solid_ofPercent? hf⟩
  | style =>
    obtain ⟨w, hw, rfl⟩ := h
    have each : ∀ w ∈ styleWords, IsSolid w := by decide
    exact isSolid_append.2 ⟨by decide, each w hw⟩
  | weight =>
    obtain ⟨_, hw⟩ := h
    exact solid_weightClass (by decide) hw
  | side k =>
    obtain ⟨_, hw⟩ := h
    exact solid_weightClass (by cases k <;> decide) hw

namespace State

variable {s : State}

theorem shaped_apply (h : s.classes.Obeys Shape) (e : Entry) :
    (s.apply e).classes.Obeys Shape := by
  cases e with
  | color value =>
    simp only [apply, setColor]
    split
    · next c hc =>
      rw [Draft.classes_put]
      exact h.set (.intro ⟨value, c, hc, rfl⟩)
    · exact h
  | opacity value =>
    simp only [apply, setOpacity]
    split
    · next f hf =>
      rw [Draft.classes_put]
      exact h.set (.intro ⟨value, f, hf, rfl⟩)
    · exact h
  | position value =>
    simp only [apply, checkPosition]
    split <;> exact h
  | style value =>
    simp only [apply, setStyle]
    split
    · next hw =>
      rw [Draft.classes_put]
      exact h.set (.intro ⟨_, List.contains_iff_mem.1 hw, rfl⟩)
    · exact h
  | uniform value =>
    simp only [apply, setUniform]
    split
    · next c hc =>
      rw [Draft.classes_put, Draft.classes_eraseAll]
      exact (h.eraseAll _).set (.intro ⟨value, hc⟩)
    · exact h
  | side side value =>
    simp only [apply, setSide]
    split
    · next c hc =>
      rw [Draft.classes_put, Draft.classes_discard]
      exact (h.erase .weight).set (.intro ⟨value, hc⟩)
    · exact h
  | unread u => exact h

end State

theorem shaped_run (ts : List Token) : (run ts).classes.Obeys Shape :=
  run_invariant (P := fun s => s.classes.Obeys Shape) .empty
    (fun e h => State.shaped_apply h e) ts

/-- Every class of a stroke is one that a concern spells. -/
theorem spelled_of_mem_read {input : Option Text} {c : Text} (hc : c ∈ (read input).classes) :
    ∃ k : Concern, k.Spells c := by
  unfold read at hc
  split at hc
  · simp at hc
  · rw [Draft.classes_report, State.classes_finish] at hc
    obtain ⟨k, -, hk⟩ := (shaped_run (tokens input)).exists_of_mem hc
    exact ⟨k, hk⟩

theorem beginsWith_of_mem_read {input : Option Text} {c : Text}
    (hc : c ∈ (read input).classes) : BeginsWith leads c := by
  obtain ⟨k, hk⟩ := spelled_of_mem_read hc
  exact hk.beginsWith

end Inspector.Stroke
