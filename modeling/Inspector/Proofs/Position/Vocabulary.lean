import Inspector.Proofs.Fragment
import Inspector.Proofs.Position.Run

/-!
# The classes of a position

Each concern of a position has the classes of one value, of a fixed spelling. Only a place that
scales has a class that a layout may have as well: the full width or the full height.

    (run ts).draft.classes.Obeys Concern.Spells                                       (shaped_run)
    c ∈ (read input).report.classes → BeginsWith leads c ∨ c ∈ fullSizes   (beginsWith_of_mem_read)
    c ∈ (read input).report.classes → IsSolid c                                 (solid_of_mem_read)
-/

namespace Inspector.Position

open Text

namespace Concern

/-- The classes that a concern may have, all at once. -/
def Spells : Concern → List Text → Prop
  | .frame, cs => cs = ["fixed".toList] ∨ cs = ["relative".toList]
  | .rotate, cs => ∃ degrees c, Angle.class? degrees = some c ∧ cs = [c]
  | .flipX, cs => cs = ["-scale-x-100".toList]
  | .flipY, cs => cs = ["-scale-y-100".toList]
  | .place axis, cs => axis.Admits cs
  | .depth, cs => cs = ["z-50".toList] ∨ ∃ value c, depthClass? value = some c ∧ cs = [c]

end Concern

/-- How the classes of a position begin, full sizes aside. -/
def leads : List Text :=
  ["fixed", "relative", "rotate-", "-rotate-", "-scale-", "left-", "right-", "top-", "bottom-",
    "-translate-", "z-", "-z-"]

def fullSizes : List Text := ["w-full", "h-full"]

theorem beginsWith_class? {degrees : Binary64} {c : Text} (h : Angle.class? degrees = some c) :
    BeginsWith ["rotate-", "-rotate-"] c := by
  unfold Angle.class? at h
  dsimp only at h
  split at h
  · simp at h
  · split at h
    · next negative u _ =>
      split at h
      · obtain rfl := Option.some.inj h
        cases negative
        · exact .of_mem (l := "rotate-") (by decide) ⟨_, rfl⟩
        · exact .of_mem (l := "-rotate-") (by decide) ⟨_, rfl⟩
      · obtain rfl := Option.some.inj h
        exact .of_mem (l := "rotate-") (by decide) ⟨_, rfl⟩
    · obtain rfl := Option.some.inj h
      exact .of_mem (l := "rotate-") (by decide) ⟨_, rfl⟩

theorem beginsWith_depthClass? {value c : Text} (h : depthClass? value = some c) :
    BeginsWith ["z-", "-z-"] c := by
  unfold depthClass? at h
  split at h
  · obtain rfl := Option.some.inj h
    decide
  · obtain ⟨n, -, rfl⟩ := Option.map_eq_some_iff.1 h
    split
    · split
      · exact .of_mem (l := "-z-") (by decide) ⟨_, rfl⟩
      · exact .of_mem (l := "z-") (by decide) ⟨_, rfl⟩
    · exact .of_mem (l := "z-") (by decide) ⟨_, rfl⟩

theorem beginsWith_edge? {axis : Axis} {value c : Text} (h : edge? value = some (axis, c)) :
    BeginsWith leads c := by
  unfold edge? at h
  dsimp only at h
  split_ifs at h <;> cases h <;> decide

theorem beginsWith_constraint? {axis : Axis} {value : Text} {cs : List Text}
    (h : constraint? axis value = some cs) : ∀ c ∈ cs, BeginsWith leads c ∨ c ∈ fullSizes := by
  cases axis with
  | horizontal =>
    simp only [constraint?] at h
    split_ifs at h <;> cases h <;> decide
  | vertical =>
    simp only [constraint?] at h
    split_ifs at h <;> cases h <;> decide

theorem Axis.Admits.beginsWith {axis : Axis} {cs : List Text} (h : axis.Admits cs) {c : Text}
    (hc : c ∈ cs) : BeginsWith leads c ∨ c ∈ fullSizes := by
  rcases h with ⟨value, c', he, rfl⟩ | ⟨value, f, -, rfl⟩ | ⟨value, h⟩
  · rw [List.mem_singleton.1 hc]
    exact .inl (beginsWith_edge? he)
  · rw [List.mem_singleton.1 hc]
    cases axis with
    | horizontal => exact .inl (.of_mem (l := "left-") (by decide) ⟨f, rfl⟩)
    | vertical => exact .inl (.of_mem (l := "top-") (by decide) ⟨f, rfl⟩)
  · exact beginsWith_constraint? h c hc

theorem Concern.Spells.beginsWith {k : Concern} {cs : List Text} (h : k.Spells cs) {c : Text}
    (hc : c ∈ cs) : BeginsWith leads c ∨ c ∈ fullSizes := by
  cases k with
  | place axis => exact Axis.Admits.beginsWith h hc
  | rotate =>
    obtain ⟨degrees, c', ha, rfl⟩ := h
    rw [List.mem_singleton.1 hc]
    exact .inl ((beginsWith_class? ha).mono (by decide))
  | flipX | flipY =>
    rw [show cs = _ from h, List.mem_singleton] at hc
    rw [hc]
    decide
  | frame =>
    rcases h with rfl | rfl <;> rw [List.mem_singleton.1 hc] <;> decide
  | depth =>
    rcases h with rfl | ⟨value, c', hd, rfl⟩
    · rw [List.mem_singleton.1 hc]
      decide
    · rw [List.mem_singleton.1 hc]
      exact .inl ((beginsWith_depthClass? hd).mono (by decide))

/-! ## Blanks -/

theorem solid_class? {degrees : Binary64} {c : Text} (h : Angle.class? degrees = some c) :
    IsSolid c := by
  have spelled (x : Binary64) : IsSolid ("rotate-[" ++ x.spelled ++ "deg]") :=
    isSolid_append.2 ⟨isSolid_append.2 ⟨by decide, x.solid_spelled⟩, by decide⟩
  unfold Angle.class? at h
  dsimp only at h
  split at h
  · cases h
  · split at h
    · next negative u _ =>
      split at h
      · obtain rfl := Option.some.inj h
        have sign : IsSolid (if negative then ['-'] else []) := by cases negative <;> decide
        exact isSolid_append.2 ⟨isSolid_append.2 ⟨sign, by decide⟩, isSolid_toDigits _⟩
      · exact Option.some.inj h ▸ spelled _
    · exact Option.some.inj h ▸ spelled _

theorem solid_depthClass? {value c : Text} (h : depthClass? value = some c) : IsSolid c := by
  unfold depthClass? at h
  split at h
  · exact Option.some.inj h ▸ (by decide)
  · obtain ⟨n, -, rfl⟩ := Option.map_eq_some_iff.1 h
    have sign : IsSolid (if n < 0 then ['-'] else []) := by split <;> decide
    have digits := isSolid_toDigits n.natAbs
    split
    · exact isSolid_append.2 ⟨isSolid_append.2 ⟨sign, by decide⟩, digits⟩
    · exact isSolid_append.2
        ⟨isSolid_append.2 ⟨by decide, isSolid_append.2 ⟨sign, digits⟩⟩, by decide⟩

theorem solid_constraint? {axis : Axis} {value : Text} {cs : List Text}
    (h : constraint? axis value = some cs) : ∀ c ∈ cs, IsSolid c := by
  cases axis with
  | horizontal =>
    simp only [constraint?] at h
    split_ifs at h <;> cases h <;> decide
  | vertical =>
    simp only [constraint?] at h
    split_ifs at h <;> cases h <;> decide

theorem Axis.Admits.solid {axis : Axis} {cs : List Text} (h : axis.Admits cs) {c : Text}
    (hc : c ∈ cs) : IsSolid c := by
  rcases h with ⟨value, c', he, rfl⟩ | ⟨value, f, hf, rfl⟩ | ⟨value, h⟩
  · rw [List.mem_singleton.1 hc]
    unfold edge? at he
    dsimp only at he
    split_ifs at he <;> cases he <;> decide
  · rw [List.mem_singleton.1 hc]
    have lead : IsSolid (offsetLead axis) := by cases axis <;> decide
    exact isSolid_append.2 ⟨lead, Fragment.solid_ofLength? hf⟩
  · exact solid_constraint? h c hc

theorem Concern.Spells.solid {k : Concern} {cs : List Text} (h : k.Spells cs) {c : Text}
    (hc : c ∈ cs) : IsSolid c := by
  cases k with
  | place axis => exact Axis.Admits.solid h hc
  | rotate =>
    obtain ⟨degrees, c', ha, rfl⟩ := h
    rw [List.mem_singleton.1 hc]
    exact solid_class? ha
  | flipX | flipY =>
    rw [show cs = _ from h, List.mem_singleton] at hc
    rw [hc]
    decide
  | frame =>
    rcases h with rfl | rfl <;> rw [List.mem_singleton.1 hc] <;> decide
  | depth =>
    rcases h with rfl | ⟨value, c', hd, rfl⟩
    · rw [List.mem_singleton.1 hc]
      decide
    · rw [List.mem_singleton.1 hc]
      exact solid_depthClass? hd

namespace State

variable {s s' : State}

theorem shaped_setTurn (h : s.draft.classes.Obeys Concern.Spells) (t : Turn) :
    (s.setTurn t).draft.classes.Obeys Concern.Spells := by
  cases t with
  | upright => exact h.erase .rotate
  | flipX => exact h.insert rfl
  | flipY => exact h.insert rfl
  | angle degrees =>
    simp only [setTurn]
    split
    · next c hc =>
      rw [Draft.classes_put]
      exact h.set ⟨degrees, c, hc, rfl⟩
    · exact h.erase .rotate

theorem Change.shaped (h : s.draft.classes.Obeys Concern.Spells) (hc : s.Change s') :
    s'.draft.classes.Obeys Concern.Spells := by
  cases hc with
  | warned | refused | rotation => exact h
  | turn t => exact shaped_setTurn h t
  | place hcs =>
    rw [State.place, Draft.classes_put]
    exact h.set hcs
  | depth hc =>
    rw [Draft.classes_put]
    exact h.set (.inr ⟨_, _, hc, rfl⟩)

theorem shaped_setFrame (h : s.draft.classes.Obeys Concern.Spells) :
    s.setFrame.draft.classes.Obeys Concern.Spells := by
  unfold setFrame
  split
  · have fixed : (s.draft.classes.prepend .frame "fixed").Obeys Concern.Spells :=
      h.prepend (.inl rfl)
    dsimp only
    split
    · exact fixed
    · exact fixed.insert (.inl rfl)
  · split
    · exact h.prepend (.inr rfl)
    · exact h

theorem shaped_finish (h : s.draft.classes.Obeys Concern.Spells) :
    s.finish.draft.classes.Obeys Concern.Spells := by
  unfold finish
  refine shaped_setFrame ?_
  cases hf : s.flagSeen <;> cases hr : s.rotationSeen <;> simpa [error, hf, hr] using h

end State

theorem shaped_run (ts : List Token) : (run ts).draft.classes.Obeys Concern.Spells := by
  refine run_invariant (P := fun s => s.draft.classes.Obeys Concern.Spells) ?_ State.Change.shaped
  rw [classes_flagged]
  exact .empty

theorem beginsWith_of_mem_read {input : Option Text} {c : Text}
    (hc : c ∈ (read input).report.classes) : BeginsWith leads c ∨ c ∈ fullSizes := by
  have shaped := State.shaped_finish (shaped_run (tokens input))
  obtain ⟨k, cs, hk, hcs⟩ := shaped.mem_classes_iff.1 hc
  exact (shaped.of_get? hk).beginsWith hcs

theorem solid_of_mem_read {input : Option Text} {c : Text}
    (hc : c ∈ (read input).report.classes) : IsSolid c := by
  have shaped := State.shaped_finish (shaped_run (tokens input))
  obtain ⟨k, cs, hk, hcs⟩ := shaped.mem_classes_iff.1 hc
  exact (shaped.of_get? hk).solid hcs

end Inspector.Position
