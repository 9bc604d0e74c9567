import Inspector.Proofs.Color
import Inspector.Proofs.Fill.Run
import Inspector.Proofs.Fragment

/-!
# The classes of a fill

Each concern of a fill has one class at a time, of a fixed spelling. All of them begin with the lead
of backgrounds, and none has a blank.

    (run ts).draft.classes.Obeys Shape                                                (shaped_run)
    c ∈ (read input).classes → BeginsWith leads c                          (beginsWith_of_mem_read)
    k.Spells c → IsSolid c                                                          (Spells.solid)
-/

namespace Inspector.Fill

open Text

namespace Concern

/-- The classes that a concern may have. -/
def Spells : Concern → Text → Prop
  | .color, c => ∃ value col, Color.ofText? value "bg" = some col ∧ c = col.classFor "bg"
  | .url, c => ∃ value r, Image.ofText? value = some r ∧ c = "bg-[url(" ++ r ++ ")]"
  | .opacity, c =>
    c = "bg-opacity-100" ∨ ∃ value f, Fragment.ofPercent? value = some f ∧ c = "bg-opacity-" ++ f
  | .size, c => c = "bg-cover"
  | .position, c => c = "bg-center"
  | .tiling, c => c = "bg-no-repeat"

end Concern

/-- One class for each concern. -/
abbrev Shape : Concern → List Text → Prop := ClassMap.Single Concern.Spells

/-- How the classes of a fill begin. -/
def leads : List Text := ["bg-"]

theorem Concern.Spells.beginsWith {k : Concern} {c : Text} (h : k.Spells c) :
    BeginsWith leads c := by
  refine .of_mem (l := "bg-") List.mem_cons_self ?_
  cases k with
  | color =>
    obtain ⟨value, col, hc, rfl⟩ := h
    exact Color.prefix_classFor hc
  | url =>
    obtain ⟨_, r, _, rfl⟩ := h
    exact ⟨"[url(" ++ r ++ ")]", rfl⟩
  | opacity =>
    rcases h with rfl | ⟨_, f, _, rfl⟩
    · exact ⟨"opacity-100".toList, rfl⟩
    · exact ⟨"opacity-" ++ f, rfl⟩
  | size =>
    rw [show c = _ from h]
    exact ⟨"cover".toList, rfl⟩
  | position =>
    rw [show c = _ from h]
    exact ⟨"center".toList, rfl⟩
  | tiling =>
    rw [show c = _ from h]
    exact ⟨"no-repeat".toList, rfl⟩

/-- An image is referred to by words with underscores between them. -/
theorem Image.solid_ofText? {value r : Text} (h : ofText? value = some r) : IsSolid r := by
  unfold ofText? at h
  split at h
  · cases h
  · obtain rfl := Option.some.inj h
    exact isSolid_joined (by decide) fun w hw => (solid_of_mem_words hw).2

theorem Concern.Spells.solid {k : Concern} {c : Text} (h : k.Spells c) : IsSolid c := by
  cases k with
  | color =>
    obtain ⟨_, col, hc, rfl⟩ := h
    exact Color.solid_classFor (by decide) hc
  | url =>
    obtain ⟨_, r, hr, rfl⟩ := h
    exact isSolid_append.2
      ⟨isSolid_append.2 ⟨by decide, Image.solid_ofText? hr⟩, by decide⟩
  | opacity =>
    rcases h with rfl | ⟨_, f, hf, rfl⟩
    · decide
    · exact isSolid_append.2 ⟨by decide, Fragment.solid_ofPercent? hf⟩
  | size | position | tiling =>
    rw [show c = _ from h]
    decide

namespace State

variable {s s' : State}

theorem shaped_withImage {m : ClassMap Concern} (h : m.Obeys Shape) {value r : Text}
    (hr : Image.ofText? value = some r) (s : State) : (s.withImage m r).Obeys Shape := by
  have image : (m.set .url ["bg-[url(" ++ r ++ ")]"]).Obeys Shape :=
    h.set (.intro ⟨value, r, hr, rfl⟩)
  unfold withImage
  dsimp only
  split
  · exact image
  · have size := image.insert (k := .size) (.intro rfl)
    have position := size.insert (k := .position) (.intro rfl)
    exact position.insert (k := .tiling) (.intro rfl)

theorem Change.shaped {e : Entry} (h : s.draft.classes.Obeys Shape) (hc : s.Change e s') :
    s'.draft.classes.Obeys Shape := by
  cases hc with
  | refused _ | unread _ | solidKind _ => exact h
  | opacity hf => exact h.set (.intro (.inr ⟨_, _, hf, rfl⟩))
  | color _ hc => exact h.set (.intro ⟨_, _, hc, rfl⟩)
  | imageKind => exact h.erase .color
  | solidOverImage _ => exact h.eraseAll _
  | firstImage _ hr => exact shaped_withImage h hr s
  | imageOverColor _ hr => exact shaped_withImage (h.erase .color) hr s
  | nextImage _ hr => exact shaped_withImage h hr s

theorem shaped_finish (h : s.draft.classes.Obeys Shape) : s.finish.draft.classes.Obeys Shape := by
  rw [classes_finish]
  split
  · exact h
  · exact h.insert (.intro (.inl rfl))

end State

theorem shaped_run (ts : List Token) : (run ts).draft.classes.Obeys Shape :=
  run_invariant (P := fun s => s.draft.classes.Obeys Shape) .empty State.Change.shaped ts

/-- Every class of a fill is one that a concern spells. -/
theorem spelled_of_mem_read {input : Option Text} {c : Text} (hc : c ∈ (read input).classes) :
    ∃ k : Concern, k.Spells c := by
  unfold read at hc
  split at hc
  · simp at hc
  · obtain ⟨k, -, hk⟩ := (State.shaped_finish (shaped_run (tokens input))).exists_of_mem hc
    exact ⟨k, hk⟩

theorem beginsWith_of_mem_read {input : Option Text} {c : Text}
    (hc : c ∈ (read input).classes) : BeginsWith leads c := by
  obtain ⟨k, hk⟩ := spelled_of_mem_read hc
  exact hk.beginsWith

end Inspector.Fill
