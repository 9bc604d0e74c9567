import Inspector.Element
import Inspector.Proofs.Appearance.Run
import Inspector.Proofs.Fill.Complete
import Inspector.Proofs.Layout.Complete
import Inspector.Proofs.Position.Run
import Inspector.Proofs.Stroke.Run

/-!
# Elements without errors

An element without errors is complete: every value that one of its properties demands was given,
was valid, and is held to the end.

    e.inspect.errors = [] → e.Complete                                     (complete_of_no_errors)
-/

namespace Inspector

open Text

/-! ## Positions -/

namespace Position

/-- What the tokens of a position without errors hold. -/
structure Given (ts : List Token) : Prop where
  flag : ∃ t ∈ ts, isFlag t
  /-- Every flag with a value has a valid one; a bare flag has none. -/
  valid : ∀ key value, .pair key value ∈ ts → isFlagKey (lower key) → (toggle? value).isSome
  rotation : ∃ t ∈ ts, (Entry.ofToken t).isRotation

theorem given_of_read {input : Option Text} (h : (read input).report.errors = []) :
    Given (tokens input) := by
  obtain ⟨herr, hf, hr⟩ := (run (tokens input)).errors_finish_eq_nil_iff.1
    ((Draft.errors_report_eq_nil_iff ..).1 h)
  have flags : (flagged (tokens input)).draft.errors = [] :=
    List.prefix_nil.1 (herr ▸ errors_run_of_flagged (tokens input))
  rw [flagSeen_run, List.any_eq_true] at hf
  rw [rotationSeen_run, List.any_eq_true] at hr
  refine ⟨hf, fun key value hmem hkey => ?_, hr⟩
  rw [errors_flagged, List.flatMap_eq_nil_iff] at flags
  have accepted := flags _ hmem
  rw [Option.isSome_iff_ne_none]
  intro hv
  simp [flagErrors, hkey, hv] at accepted

end Position

/-! ## Appearances -/

namespace Appearance

/-- What the tokens of an appearance without errors hold. -/
structure Given (ts : List Token) : Prop where
  visibility : ∃ t ∈ ts, .visible ∈ Entry.ofToken t ∨ .hidden ∈ Entry.ofToken t
  opacity : ∃ t ∈ ts, ∃ value, .opacity value ∈ Entry.ofToken t ∧
    (Fragment.ofPercent? value).isSome

theorem given_of_errors_eq_nil {ts : List Token} (h : (run ts).finish.draft.errors = []) :
    Given ts := by
  obtain ⟨herr, hv, ho⟩ := (run ts).errors_finish_eq_nil_iff.1 h
  rw [errors_run, List.flatMap_eq_nil_iff] at herr
  rw [visibilitySeen_run, List.any_eq_true] at hv
  rw [opacitySeen_run, List.any_eq_true] at ho
  constructor
  · obtain ⟨e, he, hv⟩ := hv
    obtain ⟨t, ht, het⟩ := List.mem_flatMap.1 he
    refine ⟨t, ht, ?_⟩
    cases e with
    | visible => exact .inl het
    | hidden => exact .inr het
    | unclear value => exact absurd (herr _ he) (by simp [Entry.errors])
    | _ => simp [Entry.isVisibility] at hv
  · obtain ⟨e, he, ho⟩ := ho
    obtain ⟨t, ht, het⟩ := List.mem_flatMap.1 he
    cases e with
    | opacity value =>
      refine ⟨t, ht, value, het, ?_⟩
      by_contra hp
      exact absurd (herr _ he) (by simp [Entry.errors, hp])
    | _ => simp [Entry.isOpacity] at ho

theorem given_of_read {input : Option Text} (h : (read input).errors = []) :
    tokens input = [] ∨ Given (tokens input) := by
  unfold read at h
  split at h
  · next ht => exact .inl ht
  · exact .inr (given_of_errors_eq_nil ((Draft.errors_report_eq_nil_iff ..).1 h))

end Appearance

/-! ## Strokes -/

namespace Stroke

/-- What the tokens of a stroke without errors come to. -/
structure Drawn (ts : List Token) : Prop where
  color : (run ts).finish.contains .color
  weight : (run ts).finish.contains .weight ∨ ∃ side, (run ts).finish.contains (.side side)

theorem drawn_of_read {input : Option Text} (h : (read input).errors = []) :
    tokens input = [] ∨ Drawn (tokens input) := by
  unfold read at h
  split at h
  · next ht => exact .inl ht
  · obtain ⟨-, hc, hw⟩ := (run (tokens input)).errors_finish_eq_nil_iff.1
      ((Draft.errors_report_eq_nil_iff ..).1 h)
    refine .inr ⟨by simpa using hc, ?_⟩
    rcases Bool.or_eq_true_iff.1 hw with hw | hw
    · exact .inl (by simpa using hw)
    · obtain ⟨side, -, hs⟩ := List.any_eq_true.1 hw
      exact .inr ⟨side, by simpa using hs⟩

end Stroke

/-! ## Elements -/

namespace Element

/-- What an element without errors is certain to have. -/
structure Complete (e : Element) : Prop where
  layout : Layout.Complete e.layout
  position : Position.Given (tokens e.position)
  appearance : tokens e.appearance = [] ∨ Appearance.Given (tokens e.appearance)
  fill : tokens e.fill = [] ∨ Fill.Filled (tokens e.fill)
  stroke : tokens e.stroke = [] ∨ Stroke.Drawn (tokens e.stroke)

/-- An element without errors lacks nothing that its properties demand. -/
theorem complete_of_no_errors (e : Element) (h : e.inspect.errors = []) : e.Complete := by
  have none : ∀ r ∈ e.reports, r.errors = [] := List.flatMap_eq_nil_iff.1 h
  simp only [reports, List.forall_mem_cons, List.not_mem_nil, false_implies, implies_true,
    and_true] at none
  obtain ⟨hl, hp, ha, hf, hs⟩ := none
  exact ⟨Layout.complete_of_errors_eq_nil hl, Position.given_of_read hp,
    Appearance.given_of_read ha, Fill.filled_of_read hf, Stroke.drawn_of_read hs⟩

/-- A row of full size with a paint of its own has no errors, so it is complete. -/
theorem complete_of_painted_row :
    let e : Element :=
      { layout := some "Auto\x7bw=full,h=full,flow=row,gap=8\x7d"
        position := some "detached=no,rotation=none"
        appearance := some "visible,opacity=50"
        fill := some "color=white,opacity=100"
        stroke := some "color=black,weight=2" }
    e.inspect.errors = [] ∧ e.Complete := by
  intro e
  have h : e.inspect.errors = [] := by decide +kernel
  exact ⟨h, e.complete_of_no_errors h⟩

end Element

end Inspector
