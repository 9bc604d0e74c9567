import Inspector.Proofs.Layout.Required
import Inspector.Proofs.Number.Extent
import Inspector.Proofs.Stroke.Run
import Mathlib.Data.List.TFAE
import Mathlib.Tactic.TFAE

/-!
# Lengths that are not negative, in a layout and a stroke

A gap, a padding, a spacing and the weight of a stroke all take the same values: the quantities in
pixels, or without a unit, that are not less than zero. A width takes others as well, but comes to a
length in pixels for these alone. The layout looks for a minus sign in what it spells and the stroke
at the number, which comes to the same.

    gap, padding, spacing, weight refuse v or not alike, and spell the same number
                                                                            (extents_read_alike)
-/

namespace Inspector

open Text

/-! ## Layouts -/

namespace Layout

/-- The values of a gap that are no lengths. -/
def gapWords : List Text := ["auto", "space-between", "↔"]

namespace State

variable (s : State) {v : Text}

theorem answers_gap (trimmed : trim v = v) (plain : lower v ∉ gapWords) :
    Draft.Answers .gap ((Fragment.ofExtent? v).map ("gap-".toList ++ ·)) s.draft
      (s.step .auto (.pair "gap" v)).draft := by
  have entry : s.step .auto (.pair "gap" v) = s.setGap v := rfl
  simp only [gapWords, List.mem_cons, List.not_mem_nil, or_false] at plain
  rw [entry, setGap, trimmed]
  dsimp only
  rw [if_neg plain]
  cases Fragment.ofExtent? v with
  | none => exact Draft.answers_error rfl _
  | some f => exact Draft.answers_put rfl _ _

theorem answers_padding (ungrouped : Group.strip? v = none) :
    Draft.Answers (.padding .all) ((Fragment.ofExtent? v).map ("p-".toList ++ ·)) s.draft
      (s.step .auto (.pair "padding" v)).draft := by
  have entry : s.step .auto (.pair "padding" v) = (Padding.all.items v).foldl setPadding s := rfl
  rw [entry, Entry.items_of_plain ungrouped, List.foldl_cons, List.foldl_nil, setPadding]
  cases Fragment.ofExtent? v with
  | none => exact Draft.answers_error rfl _
  | some f => exact Draft.answers_put (s.errors_replacePadding .all) _ _

theorem answers_spacing (axis : Spacing) :
    Draft.Answers (.spacing axis) ((Fragment.ofExtent? v).map (axis.name ++ "-" ++ ·)) s.draft
      (s.step .standard (.pair axis.name v)).draft := by
  have entry : s.step .standard (.pair axis.name v) = s.setSpacing axis v := by
    cases axis <;> rfl
  rw [entry, setSpacing]
  cases Fragment.ofExtent? v with
  | none => exact Draft.answers_error rfl _
  | some f => exact Draft.answers_put rfl _ _

theorem answers_width (mode : Mode) :
    Draft.Answers (.size .width) ((Fragment.ofSize? v).map ("w-".toList ++ ·)) s.draft
      (s.step mode (.bare ("w-" ++ v))).draft := by
  have item : Dimension.ofItem? ("w-" ++ v) = some (.width, v) :=
    Dimension.ofItem?_eq_some_iff.2 (afterWord?_append _ v)
  have entry : s.step mode (.bare ("w-" ++ v)) = s.setSize .width v := by
    rw [step, Entry.ofToken, Entry.ofBare_of_item item]
    rfl
  rw [entry, setSize]
  cases Fragment.ofSize? v with
  | none => exact Draft.answers_error (congrArg Draft.errors (draft_see s .width)) _
  | some f => exact Draft.answers_put (congrArg Draft.errors (draft_see s .width)) _ _

end State

end Layout

/-! ## Strokes -/

namespace Stroke

/-- The class of a weight of so many pixels. -/
def classOfWeight (x : Binary64) : Text :=
  if x.isNat 1 then "border"
  else if [0, 2, 4, 8].any x.isNat then "border-" ++ x.spelled
  else "border-" ++ Fragment.inPixels x

theorem weightClass?_eq_some_iff {v c : Text} : weightClass? "border" v = some c ↔
    ∃ x, Fragment.IsExtent v x ∧ c = classOfWeight x := by
  simp only [weightClass?, Option.map_eq_some_iff, Fragment.filter_pixels?_eq_some_iff,
    classOfWeight]
  exact exists_congr fun x => and_congr_right fun _ => eq_comm

theorem isSome_weightClass?_iff {v : Text} :
    (weightClass? "border" v).isSome ↔ ∃ x, Fragment.IsExtent v x := by
  rw [Option.isSome_iff_exists]
  simp only [weightClass?_eq_some_iff]
  constructor
  · rintro ⟨c, x, hx, -⟩
    exact ⟨x, hx⟩
  · rintro ⟨x, hx⟩
    exact ⟨_, x, hx, rfl⟩

/-- In brackets, a weight is spelled as a length is. -/
theorem inPixels_of_classOfWeight {x y : Binary64}
    (h : classOfWeight x = "border-" ++ Fragment.inPixels y) :
    Fragment.inPixels y = Fragment.inPixels x := by
  unfold classOfWeight at h
  split_ifs at h
  · cases h
  · have number : x.spelled = Fragment.inPixels y := List.append_cancel_left h
    have bracket : '[' ∈ x.spelled := by
      rw [number]
      exact List.mem_cons_self
    exact absurd (by decide) (x.not_mem_brackets bracket)
  · exact (List.append_cancel_left h).symm

theorem State.answers_weight (b : State) {v : Text} (ungrouped : Group.strip? v = none) :
    Draft.Answers .weight (weightClass? "border" v) b (b.step (.pair "weight" v)) := by
  have entry : Entry.ofToken (.pair "weight" v) = [.uniform v] := by
    have lowered : lower "weight" = "weight" := by decide
    rw [Entry.ofToken, lowered]
    simp [Entry.ofPair, ungrouped]
  rw [step, entry, List.foldl_cons, List.foldl_nil, apply, setUniform]
  cases weightClass? "border" v with
  | none => exact Draft.answers_error rfl _
  | some c => exact Draft.answers_put (Draft.errors_eraseAll b _) c _

end Stroke

/-! ## Agreement -/

namespace Element

open Fragment

/-- A layout of this mode takes the token without an error. -/
def Takes (mode : Layout.Mode) (s : Layout.State) (t : Token) : Prop :=
  (s.step mode t).draft.errors = s.draft.errors

/-- The class is all that the concern has behind the token. -/
def Renders (mode : Layout.Mode) (s : Layout.State) (t : Token) (k : Layout.Concern) (c : Text) :
    Prop :=
  (s.step mode t).draft.classes.get? k = some [c]

/-- Every place for a length takes it or not as the others do, whatever was read before, and all spell
the same number; so does a stroke, as far as it puts its weight in brackets. -/
theorem extents_read_alike {v : Text} (trimmed : trim v = v) (ungrouped : Group.strip? v = none)
    (plain : lower v ∉ Layout.gapWords) (mode : Layout.Mode) (s : Layout.State)
    (b : Stroke.State) :
    [∃ x, IsExtent v x,
      Takes .auto s (.pair "gap" v),
      Takes .auto s (.pair "padding" v),
      Takes .standard s (.pair "space-x" v),
      Takes .standard s (.pair "space-y" v),
      (b.step (.pair "weight" v)).errors = b.errors,
      Takes mode s (.bare ("w-" ++ v)) ∧
        ∃ y, Renders mode s (.bare ("w-" ++ v)) (.size .width) ("w-" ++ inPixels y)].TFAE ∧
    ∀ x, IsExtent v x →
      Renders .auto s (.pair "gap" v) .gap ("gap-" ++ inPixels x) ∧
      Renders .auto s (.pair "padding" v) (.padding .all) ("p-" ++ inPixels x) ∧
      Renders .standard s (.pair "space-x" v) (.spacing .x) ("space-x-" ++ inPixels x) ∧
      Renders .standard s (.pair "space-y" v) (.spacing .y) ("space-y-" ++ inPixels x) ∧
      Renders mode s (.bare ("w-" ++ v)) (.size .width) ("w-" ++ inPixels x) ∧
      (b.step (.pair "weight" v)).classes.get? .weight = some [Stroke.classOfWeight x] ∧
      ∀ y, Stroke.classOfWeight x = "border-" ++ inPixels y → inPixels y = inPixels x := by
  have gap := s.answers_gap trimmed plain
  have padding := s.answers_padding ungrouped
  have spacing := fun axis => s.answers_spacing (v := v) axis
  have weight := b.answers_weight ungrouped
  have width := s.answers_width (v := v) mode
  have taken {lead : Text} : ((ofExtent? v).map (lead ++ ·)).isSome ↔ ∃ x, IsExtent v x := by
    rw [Option.isSome_map, isSome_ofExtent?_iff]
  constructor
  · tfae_have 1 ↔ 2 := (gap.errors_eq_iff.trans taken).symm
    tfae_have 1 ↔ 3 := (padding.errors_eq_iff.trans taken).symm
    tfae_have 1 ↔ 4 := ((spacing .x).errors_eq_iff.trans taken).symm
    tfae_have 1 ↔ 5 := ((spacing .y).errors_eq_iff.trans taken).symm
    tfae_have 1 ↔ 6 := (weight.errors_eq_iff.trans Stroke.isSome_weightClass?_iff).symm
    tfae_have 1 → 7 := by
      rintro ⟨x, hx⟩
      have shown := width.taken ("w-" ++ inPixels x) (by rw [ofSize?_of_isExtent hx]; rfl)
      exact ⟨shown.1, x, shown.2⟩
    tfae_have 7 → 1 := by
      rintro ⟨accepted, y, shown⟩
      obtain ⟨c, hc⟩ := Option.isSome_iff_exists.1 (width.errors_eq_iff.1 accepted)
      obtain ⟨f, hf, rfl⟩ := Option.map_eq_some_iff.1 hc
      have same : "w-".toList ++ f = "w-" ++ inPixels y := by
        simpa using (width.taken _ hc).2.symm.trans shown
      rw [← ofSize?_eq_inPixels_iff ungrouped]
      exact ⟨y, by rw [hf, List.append_cancel_left same]⟩
    tfae_finish
  · intro x hx
    have spelled (lead : Text) : (ofExtent? v).map (lead ++ ·) = some (lead ++ inPixels x) := by
      rw [ofExtent?_of_isExtent hx, Option.map_some]
    have size : (ofSize? v).map ("w-".toList ++ ·) = some ("w-" ++ inPixels x) := by
      rw [ofSize?_of_isExtent hx, Option.map_some]
    have drawn : Stroke.weightClass? "border" v = some (Stroke.classOfWeight x) :=
      Stroke.weightClass?_eq_some_iff.2 ⟨x, hx, rfl⟩
    exact ⟨(gap.taken _ (spelled _)).2, (padding.taken _ (spelled _)).2,
      ((spacing .x).taken _ (spelled _)).2, ((spacing .y).taken _ (spelled _)).2,
      (width.taken _ size).2, (weight.taken _ drawn).2, fun y => Stroke.inPixels_of_classOfWeight⟩

/-- The negative zero is a length like any other. -/
theorem negative_zero_read_alike :
    trim "-0" = "-0".toList ∧ Group.strip? "-0" = none ∧ lower "-0" ∉ Layout.gapWords ∧
      (Takes .auto {} (.pair "gap" "-0") ↔
        (Stroke.State.step {} (.pair "weight" "-0")).errors = []) ∧
      Renders .auto {} (.pair "gap" "-0") .gap "gap-[0px]" := by
  have extent : IsExtent "-0" (.finite true 0) :=
    ⟨⟨⟨.finite true 0, none⟩, by decide +kernel, rfl, rfl⟩, rfl⟩
  have alike := extents_read_alike (v := "-0") (by decide) (by decide) (by decide) .auto {} {}
  have spelled : inPixels (.finite true 0) = "[0px]" := by decide +kernel
  have shown := (alike.2 _ extent).1
  rw [spelled] at shown
  exact ⟨by decide, by decide, by decide, alike.1.out 1 5, shown⟩

end Element

end Inspector
