import Inspector.Proofs.Appearance.Run
import Inspector.Proofs.Fragment

/-!
# The classes of an appearance

Each concern of an appearance has one class at a time, of a fixed spelling and without blanks.

    (run ts).finish.draft.classes.Obeys Shape                                   (shaped_finish_run)
    c ∈ (read input).classes → BeginsWith leads c                          (beginsWith_of_mem_read)
    k.Spells c → IsSolid c                                                          (Spells.solid)
-/

namespace Inspector.Appearance

open Text

namespace Concern

/-- The classes that a concern may have. -/
def Spells : Concern → Text → Prop
  | .visibility, c => c = "invisible"
  | .opacity, c =>
    c = "opacity-100" ∨ ∃ value f, Fragment.ofPercent? value = some f ∧ c = "opacity-" ++ f
  | .radius, c => ∃ value f, radiusFragment? value = some f ∧ c = "rounded-" ++ f
  | .corner k, c =>
    ∃ value f, radiusFragment? value = some f ∧ c = "rounded-" ++ k.short ++ "-" ++ f

end Concern

/-- One class for each concern. -/
abbrev Shape : Concern → List Text → Prop := ClassMap.Single Concern.Spells

/-- How the classes of an appearance begin. -/
def leads : List Text := ["invisible", "opacity-", "rounded-"]

theorem Concern.Spells.beginsWith {k : Concern} {c : Text} (h : k.Spells c) :
    BeginsWith leads c := by
  cases k with
  | visibility =>
    rw [show c = _ from h]
    exact .of_mem (l := "invisible") (by decide) (List.prefix_refl _)
  | opacity =>
    refine .of_mem (l := "opacity-") (by decide) ?_
    rcases h with rfl | ⟨_, f, _, rfl⟩
    · exact ⟨"100".toList, rfl⟩
    · exact ⟨f, rfl⟩
  | radius =>
    obtain ⟨_, f, _, rfl⟩ := h
    exact .of_mem (l := "rounded-") (by decide) ⟨f, rfl⟩
  | corner k =>
    obtain ⟨_, f, _, rfl⟩ := h
    exact .of_mem (l := "rounded-") (by decide) ⟨k.short ++ "-" ++ f, by simp⟩

theorem solid_radiusFragment? {value f : Text} (h : radiusFragment? value = some f) :
    IsSolid f := by
  obtain ⟨q, -, h⟩ := Option.bind_eq_some_iff.1 h
  split_ifs at h
  · exact Option.some.inj h ▸ (by decide)
  · split at h
    · exact Option.some.inj h ▸ Fragment.solid_inPixels _
    · exact Option.some.inj h ▸ Fragment.solid_inPixels _
    · exact Option.some.inj h ▸ Fragment.solid_inPercent _
    · cases h

theorem Concern.Spells.solid {k : Concern} {c : Text} (h : k.Spells c) : IsSolid c := by
  cases k with
  | visibility =>
    rw [show c = _ from h]
    decide
  | opacity =>
    rcases h with rfl | ⟨_, f, hf, rfl⟩
    · decide
    · exact isSolid_append.2 ⟨by decide, Fragment.solid_ofPercent? hf⟩
  | radius =>
    obtain ⟨_, f, hf, rfl⟩ := h
    exact isSolid_append.2 ⟨by decide, solid_radiusFragment? hf⟩
  | corner k =>
    obtain ⟨_, f, hf, rfl⟩ := h
    have lead : IsSolid ("rounded-" ++ k.short ++ "-") := by cases k <;> decide
    exact isSolid_append.2 ⟨lead, solid_radiusFragment? hf⟩

namespace State

variable {s : State}

theorem shaped_setOpacity (h : s.draft.classes.Obeys Shape) (value : Text) :
    (s.setOpacity value).draft.classes.Obeys Shape := by
  unfold setOpacity
  dsimp only
  split
  · next f hf =>
    rw [Draft.classes_put]
    exact h.set (.intro (.inr ⟨value, f, hf, rfl⟩))
  · exact h

theorem shaped_setUniform (h : s.draft.classes.Obeys Shape) (value : Text) :
    (s.setUniform value).draft.classes.Obeys Shape := by
  unfold setUniform
  split
  · next f hf =>
    dsimp only
    rw [Draft.classes_put, Draft.classes_eraseAll]
    exact (h.eraseAll _).set (.intro ⟨value, f, hf, rfl⟩)
  · exact h

theorem shaped_setCorner (h : s.draft.classes.Obeys Shape) (k : Corner) (value : Text) :
    (s.setCorner k value).draft.classes.Obeys Shape := by
  unfold setCorner
  split
  · next f hf =>
    dsimp only
    rw [Draft.classes_put, Draft.classes_discard]
    exact (h.erase .radius).set (.intro ⟨value, f, hf, rfl⟩)
  · exact h

theorem shaped_apply (h : s.draft.classes.Obeys Shape) (e : Entry) :
    (s.apply e).draft.classes.Obeys Shape := by
  cases e with
  | visible => exact h.erase .visibility
  | hidden => exact h.insert (.intro rfl)
  | unclear value => exact h
  | opacity value => exact shaped_setOpacity h value
  | uniform value => exact shaped_setUniform h value
  | corner k value => exact shaped_setCorner h k value
  | unread u => exact h

theorem shaped_finish (h : s.draft.classes.Obeys Shape) : s.finish.draft.classes.Obeys Shape := by
  rw [classes_finish]
  split
  · exact h
  · exact h.insert (.intro (.inl rfl))

end State

theorem shaped_run (ts : List Token) : (run ts).draft.classes.Obeys Shape :=
  run_invariant (P := fun s => s.draft.classes.Obeys Shape) .empty
    (fun e h => State.shaped_apply h e) ts

/-- Every class of an appearance is one that a concern spells. -/
theorem spelled_of_mem_read {input : Option Text} {c : Text} (hc : c ∈ (read input).classes) :
    ∃ k : Concern, k.Spells c := by
  unfold read at hc
  split at hc
  · simp [report, State.warn, ClassMap.classes] at hc
  · next ts _ =>
    obtain ⟨k, -, hk⟩ := (State.shaped_finish (shaped_run (tokens input))).exists_of_mem hc
    exact ⟨k, hk⟩

theorem beginsWith_of_mem_read {input : Option Text} {c : Text}
    (hc : c ∈ (read input).classes) : BeginsWith leads c := by
  obtain ⟨k, hk⟩ := spelled_of_mem_read hc
  exact hk.beginsWith

end Inspector.Appearance
