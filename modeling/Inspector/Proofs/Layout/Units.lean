import Inspector.Proofs.Draft.Units
import Inspector.Proofs.Layout.Overrides

/-!
# Units in a layout

Spaces between children, gaps and paddings are in pixels, and groups of paddings are flattened to
their entries; dimensions are in pixels or percent. Any of them is refused in another unit, whatever
its number is, and where the mode does not have such a value its gate refuses it before the unit is
looked at. A bare literal is nothing to a layout.

    Quantity.ofText? v = some q → Entry.ofToken (.bare v) = [.unread (.token v)]
                                                                              (ofToken_of_quantity)
    HeedsUnits q                                                                       (heedsUnits)
-/

namespace Inspector.Layout

open Text

variable {q : Quantity}

/-! ## Entries -/

/-- The literal that an item of a padding asks its kind to take. -/
def Padding.Item.asked? : Padding.Item → Option (Asked Error)
  | .value kind v => some ⟨.extent, v, .invalidPadding kind v⟩
  | .unknown _ => none

namespace Entry

/-- The literal that an entry asks a field to take; the gates of the modes have errors of their
own. -/
def asked? (mode : Mode) : Entry → Option (Asked Error)
  | .size token d v =>
    some ⟨.length, v, if d.isBound && mode != .auto then .autoOnly token else .invalidSize d v⟩
  | .spacing token axis v =>
    some ⟨.extent, v, if mode = .auto then .standardOnly token else .invalidSpacing axis v⟩
  | .auto token (.gap v) =>
    some ⟨.extent, v, if mode = .auto then .invalidGap v else .autoOnly token⟩
  | .auto _ (.flow _) | .auto _ (.align _) | .auto _ (.settings _) | .auto _ (.padding _)
  | .marker | .clip _ | .unclearClip _ | .unread _ => none

/-- The literals of a padding, which the gate refuses as a whole. -/
def askedPaddings (mode : Mode) : Entry → List (Asked Error)
  | .auto token (.padding items) =>
    (items.filterMap Padding.Item.asked?).map fun a =>
      if mode = .auto then a else { a with refusal := .autoOnly token }
  | _ => []

def asked (mode : Mode) (e : Entry) : List (Asked Error) :=
  (e.asked? mode).toList ++ e.askedPaddings mode

end Entry

/-- The literals that the fields of a layout are asked to take. -/
def asked (r : Resolution) : List (Asked Error) :=
  (r.tokens.flatMap Entry.ofToken).flatMap (Entry.asked r.mode)

/-- The words of a gap are no literals. -/
theorem gap_of_isForeign {v : Text} (h : Gauge.extent.IsForeign q v) :
    ¬ (lower (trim v) = "auto" ∨ lower (trim v) = "space-between" ∨ lower (trim v) = "↔") := by
  have other := Quantity.lower_not_mem ["auto", "space-between", "↔"] (by decide)
    (Quantity.ofText?_trim h.1)
  simpa using other

theorem refusesForeign_apply (mode : Mode) :
    RefusesForeign State.draft (State.apply mode) (fun _ => Entry.asked? mode) q := by
  intro s e a h foreign
  cases e with
  | size token d v =>
    cases h
    simp only [State.apply, State.setSize, Fragment.ofSize?_of_isForeign foreign]
    split
    · rfl
    · exact congrArg (Draft.error · _) (State.draft_see s d)
  | spacing token axis v =>
    cases h
    simp only [State.apply, State.setSpacing, Fragment.ofExtent?_of_isForeign foreign]
    split <;> rfl
  | auto token value =>
    cases value with
    | gap v =>
      cases h
      simp only [State.apply, State.applyAuto, State.setGap, if_neg (gap_of_isForeign foreign),
        Fragment.ofExtent?_of_isForeign foreign]
      split <;> rfl
    | flow | align | settings | padding => cases h
  | marker | clip | unclearClip | unread => cases h

theorem refusesForeign_setPadding :
    RefusesForeign State.draft State.setPadding (fun _ => Padding.Item.asked?) q := by
  intro s i a h foreign
  cases i with
  | value kind v =>
    cases h
    simp only [State.setPadding, Fragment.ofExtent?_of_isForeign foreign, State.error]
  | unknown => cases h

/-! ## Bare literals -/

theorem item?_of_quantity {v : Text} (hq : Quantity.ofText? v = some q) :
    Dimension.ofItem? v = none := by
  have heads : ∀ d ∈ Dimension.all, (lower (d.short ++ "-")).any Quantity.isStray := by decide
  refine List.findSome?_eq_none_iff.2 fun d hd => ?_
  rw [Quantity.afterWord?_of_isStray hq (heads d hd)]
  rfl

/-- A bare literal is no word, no setting, no cell of the grid and no dimension. -/
theorem ofToken_of_quantity {v : Text} (hq : Quantity.ofText? v = some q) :
    Entry.ofToken (.bare v) = [.unread (.token v)] := by
  have word := Quantity.lower_not_mem (sharedWords ++ arrows) (by decide) hq
  have setting := Quantity.lower_not_mem settingNames (by decide) hq
  have cell := Quantity.lower_not_mem alignmentWords (by decide)
    (Quantity.ofText?_trim hq)
  simp only [sharedWords, arrows, List.cons_append, List.nil_append, List.mem_cons,
    List.not_mem_nil, or_false, not_or] at word
  obtain ⟨auto, standard, clip, content, down, right, back, both⟩ := word
  have noSetting : Setting.ofName? (lower v) none = none := by
    rw [settingNames, List.mem_append, not_or] at setting
    rw [Setting.ofName?, if_neg (mt List.contains_iff_mem.1 setting.1),
      if_neg (mt List.contains_iff_mem.1 setting.2)]
  have noCell : Alignment.ofText? (lower v) = none :=
    Option.not_isSome_iff_eq_none.1 (mt isSome_ofText?_lower_iff.1 cell)
  simp only [Entry.ofToken, Entry.ofBare, auto, standard, clip, content, down, right, back, both,
    or_self, if_false, noSetting, noCell, item?_of_quantity hq]

/-! ## Reports -/

namespace State

variable {mode : Mode} {s s' : State}

theorem Change.errors_subset (h : s.Change mode s') : s.draft.errors ⊆ s'.draft.errors := by
  rcases h.errors with same | ⟨e, -, added⟩
  · rw [same]
    exact List.Subset.refl _
  · rw [added]
    exact List.subset_append_left _ _

theorem errors_subset_of_changes (h : Changes mode s s') : s.draft.errors ⊆ s'.draft.errors := by
  induction h with
  | refl => exact List.Subset.refl _
  | tail _ change ih => exact List.Subset.trans ih change.errors_subset

end State

theorem refusal_mem_apply {mode : Mode} {e : Entry} {a : Asked Error} (ha : a ∈ e.asked mode)
    (foreign : a.IsForeign q) (s : State) : a.refusal ∈ (s.apply mode e).draft.errors := by
  rcases List.mem_append.1 ha with plain | padding
  · exact (refusesForeign_apply mode).refusal_mem (Option.mem_toList.1 plain) foreign
  · cases e with
    | auto token value =>
      cases value with
      | padding items =>
        obtain ⟨own, hown, rfl⟩ := List.mem_map.1 padding
        by_cases auto : mode = .auto
        · rw [if_pos auto] at foreign ⊢
          rw [State.apply, if_pos auto]
          exact refusesForeign_setPadding.refusal_mem_foldl
            (fun s i => (s.change_setPadding auto i).errors_subset) hown foreign s
        · rw [if_neg auto, State.apply, if_neg auto]
          exact List.mem_append_right _ (List.mem_singleton_self _)
      | _ => cases padding
    | _ => cases padding

theorem refusal_mem_errors {r : Resolution} {a : Asked Error} (ha : a ∈ asked r)
    (foreign : a.IsForeign q) : a.refusal ∈ ((run r).finish r.mode).draft.errors := by
  obtain ⟨e, he, asks⟩ := List.mem_flatMap.1 ha
  have kept (s : State) (e : Entry) : s.draft.errors ⊆ (s.apply r.mode e).draft.errors :=
    State.errors_subset_of_changes (s.changes_apply e)
  rw [State.errors_finish, run_entries]
  exact List.mem_append_left _ (mem_foldl_of_kept (fun s : State => s.draft.errors) kept he
    (refusal_mem_apply asks foreign) _)

theorem unread_mem_warnings {r : Resolution} {v : Text} (hv : .bare v ∈ r.tokens)
    (foreign : Gauge.nothing.IsForeign q v) :
    .unread (.token v) ∈ ((run r).finish r.mode).draft.warnings := by
  have own : .unread (.token v) ∈ Entry.ofToken (.bare v) := by
    rw [ofToken_of_quantity foreign.1]
    exact List.mem_singleton_self _
  have noted : .unread (.token v) ∈ ((run r).finish r.mode).draft.noted Warning.isUnknown := by
    rw [State.noted_finish _ _ rfl rfl, run_entries]
    exact mem_log_foldl (fun s : State => s.draft.noted Warning.isUnknown)
      (fun s e => s.noted_apply r.mode e) (List.mem_flatMap_of_mem hv own)
      (List.mem_singleton_self _) _
  exact List.mem_of_mem_filter noted

/-- No literal of the quantity is taken in a unit that is foreign to the field. -/
structure HeedsUnits (q : Quantity) : Prop where
  refused : ∀ mode, RefusesForeign State.draft (State.apply mode) (fun _ => Entry.asked? mode) q
  padded : RefusesForeign State.draft State.setPadding (fun _ => Padding.Item.asked?) q
  passed : ∀ mode,
    PassesForeign State.draft (State.step mode) .nothing (fun v => .unread (.token v)) q
  told : ∀ input, TellsForeign .layout (read input).report (asked (Mode.resolve input))
    Error.message .nothing (Mode.resolve input).tokens q

theorem heedsUnits (q : Quantity) : HeedsUnits q where
  refused := refusesForeign_apply
  padded := refusesForeign_setPadding
  passed mode s v foreign := by
    rw [State.step, ofToken_of_quantity foreign.1]
    rfl
  told _ := Draft.tellsForeign (fun _ => rfl) (fun _ => refusal_mem_errors)
    fun _ => unread_mem_warnings

end Inspector.Layout
