import Inspector.Proofs.Layout.Vocabulary

/-!
# Layouts without errors

A value that was seen is held unless an error says why it is not, and no value that is required is
ever taken back. So a layout without errors has its width and its height, and in Auto layout its
flow, each as one class.

    (run r).Sound                                                                    (sound_run)
    (read input).report.errors = [] → Complete input                   (complete_of_errors_eq_nil)
-/

namespace Inspector.Layout

open Text

namespace State

/-- What was seen is held or was refused. -/
structure Sound (s : State) : Prop where
  width : s.widthSeen → s.draft.classes.contains (.size .width) ∨ s.draft.errors ≠ []
  height : s.heightSeen → s.draft.classes.contains (.size .height) ∨ s.draft.errors ≠ []
  flow : s.flowSeen → s.draft.classes.contains .flow ∨ s.draft.errors ≠ []
  row : s.flow = some .row → s.draft.classes.contains .flow

theorem Sound.of_errors {s : State} (he : s.draft.errors ≠ [])
    (hrow : s.flow = some .row → s.draft.classes.contains .flow) : s.Sound :=
  ⟨fun _ => .inr he, fun _ => .inr he, fun _ => .inr he, hrow⟩

theorem Sound.change {mode : Mode} {s s' : State} (h : s.Sound) (hc : s.Change mode s') :
    s'.Sound := by
  obtain ⟨hw, hh, hf, hr⟩ := h
  cases hc with
  | warned | baseline => exact ⟨hw, hh, hf, hr⟩
  | refused | flowRefused | alignmentRefused | gapRefused => exact .of_errors (by simp [error]) hr
  | @sizeRefused d =>
    refine .of_errors (by simp [error]) ?_
    cases d <;> exact hr
  | @size d => cases d <;> constructor <;> simp_all [see, put]
  | clip on => cases on <;> constructor <;> simp_all [setClip]
  | spacing | gap => constructor <;> simp_all [put]
  | row | column => constructor <;> simp_all [setDirection, put]
  | wrap _ hrow => constructor <;> simp_all
  | alignment _ ha =>
    rw [setAlignment, ha]
    dsimp only
    split <;> exact ⟨hw, hh, hf, hr⟩
  | gapBetween => constructor <;> simp_all
  | @padding kind =>
    -- Only paddings are replaced, so the size and the flow stay held.
    show Sound (put { s with draft := (s.replacePadding kind).draft } _ _ _)
    constructor <;> simp_all [put]

end State

open State

theorem sound_run (r : Resolution) : (run r).Sound :=
  run_invariant (by constructor <;> simp) Sound.change

/-! ## One class each -/

/-- A class that begins like those of one concern only is a class of that concern. -/
theorem eq_of_prefix_lead {k k' : Concern} {c : Text}
    (alone : ∀ j ∈ Concern.all, j ≠ k' → apart [j.lead] [k'.lead]) (hk : k.Spells c)
    (h : k'.lead <+: c) : k = k' := by
  by_contra hne
  exact not_beginsWith_both (alone k k.mem_all hne) (.of_mem List.mem_cons_self hk.lead)
    (.of_mem List.mem_cons_self h)

theorem eq_size_of_prefix {d : Dimension} {k : Concern} {c : Text} (hk : k.Spells c)
    (h : d.short ++ "-".toList <+: c) : k = .size d :=
  eq_of_prefix_lead (by cases d <;> decide) hk h

def flowClasses : List Text := ["flex-row", "flex-col"]

theorem eq_flow_of_row_or_column {k : Concern} {c : Text} (hk : k.Spells c)
    (h : c = "flex-row" ∨ c = "flex-col") : k = .flow := by
  by_contra hne
  have hmem : c ∈ flowClasses := by rcases h with rfl | rfl <;> decide
  have others : ∀ k ∈ Concern.all, k ≠ .flow →
      k = .display ∨ k = .wrap ∨ apart [k.lead] flowClasses := by decide
  rcases others k k.mem_all hne with rfl | rfl | hlead
  · rw [show c = _ from hk] at hmem
    exact absurd hmem (by decide)
  · rw [show c = _ from hk] at hmem
    exact absurd hmem (by decide)
  · exact not_beginsWith_both hlead (.of_mem List.mem_cons_self hk.lead)
      (.of_mem hmem (List.prefix_refl c))

theorem size_classes_read {input : Option Text} {d : Dimension}
    (h : (run (Mode.resolve input)).draft.classes.contains (.size d)) :
    ∃ c, ((read input).report.classes.filter fun c => (d.short ++ "-".toList).isPrefixOf c) =
      [c] := by
  have held : ((run (Mode.resolve input)).finish (Mode.resolve input).mode).draft.contains
      (.size d) := contains_finish _ h
  obtain ⟨c, -, hc⟩ := (shaped_read (Mode.resolve input)).filter_classes held
    (p := fun c => (d.short ++ "-".toList).isPrefixOf c)
    (fun c hs => List.isPrefixOf_iff_prefix.2 hs.2.lead)
    (fun k c hs hp => eq_size_of_prefix hs.2 (List.isPrefixOf_iff_prefix.1 hp))
  exact ⟨c, hc⟩

theorem flow_classes_read {input : Option Text}
    (h : (run (Mode.resolve input)).draft.classes.contains .flow) :
    ∃ c, ((read input).report.classes.filter fun c : Text => c = "flex-row" ∨ c = "flex-col") =
      [c] := by
  have held : ((run (Mode.resolve input)).finish (Mode.resolve input).mode).draft.contains
      .flow := contains_finish _ h
  obtain ⟨c, -, hc⟩ := (shaped_read (Mode.resolve input)).filter_classes held
    (p := fun c : Text => c = "flex-row" ∨ c = "flex-col") (fun c hs => decide_eq_true hs.2)
    (fun k c hs hp => eq_flow_of_row_or_column hs.2 (of_decide_eq_true hp))
  exact ⟨c, hc⟩

/-- In Auto layout an element with a flow is a flex box first of all. -/
theorem head?_classes_read {input : Option Text} (hm : (read input).mode = .auto)
    (h : (run (Mode.resolve input)).draft.classes.contains .flow) :
    (read input).report.classes.head? = some "flex".toList := by
  have hm' : (Mode.resolve input).mode = .auto := hm
  have held : (run (Mode.resolve input)).resolveAlignment.checkSize.checkAuto.draft.contains
      .flow := by
    rw [Draft.contains_eq, classes_checkAuto, classes_checkSize]
    exact contains_resolveAlignment _ h
  have flex : flexConcerns.any
      (run (Mode.resolve input)).resolveAlignment.checkSize.checkAuto.draft.contains :=
    List.any_eq_true.2 ⟨.flow, by decide, held⟩
  show ((run _).finish _).draft.classes.classes.head? = _
  rw [finish, if_pos hm', setDisplay, if_pos flex]
  exact ClassMap.head?_classes_prepend _ _ _

/-! ## Completeness -/

/-- What a layout without errors is certain to have. -/
structure Complete (input : Option Text) : Prop where
  written : trim (input.getD []) ≠ []
  width : ∃ c, ((read input).report.classes.filter fun c => "w-".toList.isPrefixOf c) = [c]
  height : ∃ c, ((read input).report.classes.filter fun c => "h-".toList.isPrefixOf c) = [c]
  flow : (read input).mode = .auto →
    ∃ c, ((read input).report.classes.filter fun c : Text => c = "flex-row" ∨ c = "flex-col") =
      [c]
  display : (read input).mode = .auto →
    (read input).report.classes.head? = some "flex".toList

theorem complete_of_errors_eq_nil {input : Option Text} (h : (read input).report.errors = []) :
    Complete input := by
  obtain ⟨herr, hw, hh, hf⟩ := ((run (Mode.resolve input)).errors_finish_eq_nil_iff).1
    ((Draft.errors_report_eq_nil_iff ..).1 h)
  have sound := sound_run (Mode.resolve input)
  have width := (sound.width hw).resolve_right (not_not.2 herr)
  have height := (sound.height hh).resolve_right (not_not.2 herr)
  have flow (hm : (read input).mode = .auto) := (sound.flow (hf hm)).resolve_right (not_not.2 herr)
  refine ⟨fun hblank => ?_, size_classes_read width, size_classes_read height,
    fun hm => flow_classes_read (flow hm), fun hm => head?_classes_read hm (flow hm)⟩
  have nothing : Mode.resolve input = ⟨.unknown, [], none⟩ := by rw [Mode.resolve, hblank]
  rw [nothing] at hw
  exact absurd hw (by decide)

end Inspector.Layout
