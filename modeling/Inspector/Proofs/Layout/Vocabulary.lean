import Inspector.Proofs.Fragment
import Inspector.Proofs.Layout.Run

/-!
# The classes of a layout

Each concern of a layout has one class at a time, of a fixed spelling, and most concerns exist in
one mode only. Both hold of every run and are kept to the end of the layout.

    k.Spells c → k.lead <+: c                                                     (Spells.lead)
    k.Spells c → IsSolid c                                                          (Spells.solid)
    (run r).draft.classes.Obeys (Shape r.mode)                                     (shaped_run)
    c ∈ (read input).report.classes → ∃ k, k.isOf (read input).mode ∧ k.Spells c
                                                                          (spelled_of_mem_read)
    c ∈ (read input).report.classes → BeginsWith leads c                   (beginsWith_of_mem_read)
-/

namespace Inspector.Layout

open Text

namespace Concern

/-- The classes that a concern may have. -/
def Spells : Concern → Text → Prop
  | .display, c => c = "flex"
  | .size d, c => ∃ value f, Fragment.ofSize? value = some f ∧ c = d.short ++ "-" ++ f
  | .clip, c => c = "overflow-hidden"
  | .spacing axis, c => ∃ value f, Fragment.ofExtent? value = some f ∧ c = axis.name ++ "-" ++ f
  | .flow, c => c = "flex-row" ∨ c = "flex-col"
  | .wrap, c => c = "flex-wrap"
  | .gap, c => ∃ value f, Fragment.ofExtent? value = some f ∧ c = "gap-" ++ f
  | .justify, c => c = "justify-between" ∨ ∃ p : Place, c = "justify-" ++ p.name
  | .items, c => c = "items-baseline" ∨ ∃ p : Place, c = "items-" ++ p.name
  | .padding kind, c => ∃ value f, Fragment.ofExtent? value = some f ∧ c = kind.short ++ "-" ++ f

/-- How the classes of a concern begin. -/
def lead : Concern → Text
  | .display => "flex"
  | .size d => d.short ++ "-"
  | .clip => "overflow-hidden"
  | .spacing axis => axis.name ++ "-"
  | .flow => "flex-"
  | .wrap => "flex-wrap"
  | .gap => "gap-"
  | .justify => "justify-"
  | .items => "items-"
  | .padding kind => kind.short ++ "-"

/-- Whether a layout of this mode can hold the concern. -/
def isOf (mode : Mode) : Concern → Bool
  | .size d => !d.isBound || mode = .auto
  | .clip => true
  | .spacing _ => mode ≠ .auto
  | _ => mode = .auto

def all : List Concern :=
  [.display, .clip, .spacing .x, .spacing .y, .flow, .wrap, .gap, .justify, .items] ++
    Dimension.all.map .size ++ Padding.kinds.map .padding

theorem mem_all (k : Concern) : k ∈ all := by
  cases k with
  | size d => cases d <;> decide
  | spacing axis => cases axis <;> decide
  | padding kind => cases kind <;> decide
  | _ => decide

theorem Spells.lead {k : Concern} {c : Text} (h : k.Spells c) : k.lead <+: c := by
  cases k with
  | size d | spacing axis | gap | padding kind =>
    obtain ⟨_, f, _, rfl⟩ := h
    exact ⟨f, rfl⟩
  | flow =>
    rcases h with rfl | rfl
    · exact ⟨"row".toList, rfl⟩
    · exact ⟨"col".toList, rfl⟩
  | justify =>
    rcases h with rfl | ⟨p, rfl⟩
    · exact ⟨"between".toList, rfl⟩
    · exact ⟨p.name, rfl⟩
  | items =>
    rcases h with rfl | ⟨p, rfl⟩
    · exact ⟨"baseline".toList, rfl⟩
    · exact ⟨p.name, rfl⟩
  | display | clip | wrap =>
    rw [show c = _ from h]
    exact List.prefix_refl _

theorem solid_lead (k : Concern) : IsSolid k.lead := by
  have each : ∀ k ∈ all, IsSolid k.lead := by decide
  exact each k k.mem_all

theorem Spells.solid {k : Concern} {c : Text} (h : k.Spells c) : IsSolid c := by
  have place (p : Place) : IsSolid p.name := by cases p <;> decide
  cases k with
  | size d =>
    obtain ⟨_, f, hf, rfl⟩ := h
    exact isSolid_append.2 ⟨solid_lead (.size d), Fragment.solid_ofSize? hf⟩
  | spacing axis =>
    obtain ⟨_, f, hf, rfl⟩ := h
    exact isSolid_append.2 ⟨solid_lead (.spacing axis), Fragment.solid_ofExtent? hf⟩
  | gap =>
    obtain ⟨_, f, hf, rfl⟩ := h
    exact isSolid_append.2 ⟨solid_lead .gap, Fragment.solid_ofExtent? hf⟩
  | padding kind =>
    obtain ⟨_, f, hf, rfl⟩ := h
    exact isSolid_append.2 ⟨solid_lead (.padding kind), Fragment.solid_ofExtent? hf⟩
  | flow =>
    rcases h with rfl | rfl <;> decide
  | justify =>
    rcases h with rfl | ⟨p, rfl⟩
    · decide
    · exact isSolid_append.2 ⟨solid_lead .justify, place p⟩
  | items =>
    rcases h with rfl | ⟨p, rfl⟩
    · decide
    · exact isSolid_append.2 ⟨solid_lead .items, place p⟩
  | display | clip | wrap =>
    rw [show c = _ from h]
    decide

end Concern

/-- One class for each concern, and only concerns that the mode knows. -/
abbrev Shape (mode : Mode) : Concern → List Text → Prop :=
  ClassMap.Single fun k c => k.isOf mode ∧ k.Spells c

namespace State

variable {mode : Mode} {s s' : State}

/-! ## Runs -/

theorem shaped_put (h : s.draft.classes.Obeys (Shape mode)) {k : Concern} {c : Text}
    (hk : k.isOf mode) (hc : k.Spells c) (again : Superseded) :
    (s.put k c again).draft.classes.Obeys (Shape mode) := by
  rw [put, Draft.classes_put]
  exact h.set (.intro ⟨hk, hc⟩)

theorem Change.shaped (h : s.draft.classes.Obeys (Shape mode)) (hc : s.Change mode s') :
    s'.draft.classes.Obeys (Shape mode) := by
  cases hc with
  | warned | refused | flowRefused | alignmentRefused | gapRefused | baseline => exact h
  | @size d value f hd hf =>
    have hk : Concern.isOf mode (.size d) := by
      rw [Concern.isOf]
      cases hb : d.isBound with
      | false => rfl
      | true => simp [hd hb]
    exact shaped_put (by rwa [draft_see]) hk ⟨value, f, hf, rfl⟩ _
  | sizeRefused => simpa [error] using h
  | clip on =>
    cases on with
    | true => exact h.insert (.intro ⟨rfl, rfl⟩)
    | false => exact h.erase .clip
  | spacing hm hf =>
    exact shaped_put (k := .spacing _) h (decide_eq_true hm) ⟨_, _, hf, rfl⟩ _
  | row hm =>
    exact shaped_put (k := .flow) (s := { s with flowSeen := true }) h (decide_eq_true hm)
      (.inl rfl) _
  | column hm =>
    have h' : (s.draft.discard .wrap .wrapRemoved).classes.Obeys (Shape mode) := by
      rw [Draft.classes_discard]
      exact h.erase .wrap
    exact shaped_put (k := .flow) (s := { s with flowSeen := true, draft := _ }) h'
      (decide_eq_true hm) (.inr rfl) _
  | wrap hm _ => exact h.insert (.intro ⟨decide_eq_true hm, rfl⟩)
  | alignment hm ha =>
    rw [setAlignment, ha]
    dsimp only
    split <;> exact h
  | gapBetween hm => exact h.erase .gap
  | gap hm hf =>
    exact shaped_put (k := .gap) (s := { s with gapSeen := true }) h (decide_eq_true hm)
      ⟨_, _, hf, rfl⟩ _
  | padding hm hf =>
    refine shaped_put (k := .padding _) ?_ (decide_eq_true hm) ⟨_, _, hf, rfl⟩ _
    rw [classes_replacePadding]
    exact h.eraseAll _

/-! ## The end -/

theorem shaped_resolveAlignment (h : s.draft.classes.Obeys (Shape .auto)) :
    s.resolveAlignment.draft.classes.Obeys (Shape .auto) := by
  have justified : ∀ c, s.justifyClass? = some c → Shape .auto .justify [c] := by
    intro c hc
    refine .intro ⟨rfl, ?_⟩
    unfold justifyClass? at hc
    split at hc
    · exact .inl (Option.some.inj hc).symm
    · obtain ⟨a, _, rfl⟩ := Option.map_eq_some_iff.1 hc
      exact .inr ⟨_, rfl⟩
  have aligned : ∀ c, s.itemsClass? = some c → Shape .auto .items [c] := by
    intro c hc
    refine .intro ⟨rfl, ?_⟩
    unfold itemsClass? at hc
    split at hc
    · exact .inl (Option.some.inj hc).symm
    · obtain ⟨a, _, rfl⟩ := Option.map_eq_some_iff.1 hc
      exact .inr ⟨_, rfl⟩
  unfold resolveAlignment
  cases hj : s.justifyClass? with
  | none =>
    cases hi : s.itemsClass? with
    | none => exact h
    | some c => exact h.insert (aligned c hi)
  | some j =>
    cases hi : s.itemsClass? with
    | none => exact h.insert (justified j hj)
    | some c => exact (h.insert (justified j hj)).insert (aligned c hi)

theorem shaped_setDisplay (h : s.draft.classes.Obeys (Shape .auto)) :
    s.setDisplay.draft.classes.Obeys (Shape .auto) := by
  unfold setDisplay
  split
  · exact h.prepend (.intro ⟨rfl, rfl⟩)
  · exact h

theorem shaped_finish (h : s.draft.classes.Obeys (Shape mode)) :
    (s.finish mode).draft.classes.Obeys (Shape mode) := by
  unfold finish
  split
  · next hm =>
    subst hm
    refine shaped_setDisplay ?_
    rw [classes_checkAuto, classes_checkSize]
    exact shaped_resolveAlignment h
  · rwa [classes_checkSize]

end State

open State

theorem shaped_run (r : Resolution) : (run r).draft.classes.Obeys (Shape r.mode) :=
  run_invariant .empty Change.shaped

theorem shaped_read (r : Resolution) :
    ((run r).finish r.mode).draft.classes.Obeys (Shape r.mode) :=
  shaped_finish (shaped_run r)

/-- Every class of a layout is that of a concern that its mode knows. -/
theorem spelled_of_mem_read {input : Option Text} {c : Text}
    (hc : c ∈ (read input).report.classes) :
    ∃ k : Concern, k.isOf (read input).mode ∧ k.Spells c := by
  obtain ⟨k, -, hk⟩ := (shaped_read (Mode.resolve input)).exists_of_mem hc
  exact ⟨k, hk⟩

/-- How the classes of a layout begin. -/
def leads : List Text :=
  ["flex", "w-", "h-", "min-w-", "max-w-", "min-h-", "max-h-", "overflow-hidden", "space-", "gap-",
    "justify-", "items-", "p-", "px-", "py-", "pt-", "pr-", "pb-", "pl-"]

theorem Concern.beginsWith_lead (k : Concern) : BeginsWith leads k.lead := by
  have each : ∀ k ∈ Concern.all, BeginsWith leads k.lead := by decide
  exact each k k.mem_all

theorem beginsWith_of_mem_read {input : Option Text} {c : Text}
    (hc : c ∈ (read input).report.classes) : BeginsWith leads c := by
  obtain ⟨k, -, hk⟩ := spelled_of_mem_read hc
  exact k.beginsWith_lead.trans hk.lead

end Inspector.Layout
