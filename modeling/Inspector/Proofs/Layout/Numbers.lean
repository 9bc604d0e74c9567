import Inspector.Proofs.Layout.Alignment
import Inspector.Proofs.Number.Built

/-!
# Numbers in the classes of a layout

Each class of a layout is made by an entry of one of its tokens, or settled at the end. Sizes,
spaces between children, gaps and paddings make classes with numbers; a size that is no quantity is
spelled as it is written, or named.

    c ∈ (read input).report.classes → (∃ k ∈ lateConcerns, k.Spells c) ∨
      ∃ e ∈ (Mode.resolve input).tokens.flatMap Entry.ofToken, e.Makes c  (exists_maker_of_mem_read)
-/

namespace Inspector.Layout

open Text

/-- The class is one that the entry makes. -/
def Entry.Makes (c : Text) : Entry → Prop
  | .clip _ => c = "overflow-hidden"
  | .size _ d value =>
    Built (d.short ++ "-") value c ∨ Quantity.ofText? value = none ∧
      ∃ f, Fragment.ofSize? value = some f ∧ c = d.short ++ "-" ++ f
  | .spacing _ axis value => Built (axis.name ++ "-") value c
  | .auto _ (.flow _) => c = "flex-row" ∨ c = "flex-col" ∨ c = "flex-wrap"
  | .auto _ (.gap value) => Built "gap-" value c
  | .auto _ (.padding items) =>
    ∃ kind value, .value kind value ∈ items ∧ Built (kind.short ++ "-") value c
  | .auto _ (.align _) | .auto _ (.settings _) | .marker | .unclearClip _ | .unread _ => False

/-- All that a flow may change in the classes. -/
theorem mem_flowUpdates {flow : Option Flow} {value : Text} {u : ClassMap.Update Concern}
    (hu : u ∈ flowUpdates flow value) : u = .erase .wrap ∨ u = .set .flow ["flex-col"] ∨
      u = .set .flow ["flex-row"] ∨ u = .insert .wrap "flex-wrap" := by
  have each : flowUpdates flow value ⊆ [.erase .wrap, .set .flow ["flex-col"],
      .set .flow ["flex-row"], .insert .wrap "flex-wrap"] := by
    unfold flowUpdates
    dsimp only
    split_ifs <;> decide
  simpa using each hu

theorem makes_of_flow {flow : Option Flow} {value : Text} {u : ClassMap.Update Concern}
    (hu : u ∈ flowUpdates flow value) {k : Concern} {cs : List Text}
    (given : u.given? = some (k, cs)) {c : Text} (hc : c ∈ cs) :
    c = "flex-row" ∨ c = "flex-col" ∨ c = "flex-wrap" := by
  rcases mem_flowUpdates hu with rfl | rfl | rfl | rfl <;> cases given
  · exact .inr (.inl (List.mem_singleton.1 hc))
  · exact .inl (List.mem_singleton.1 hc)
  · exact .inr (.inr (List.mem_singleton.1 hc))

theorem Entry.makes_of_given {e : Entry} {mode : Mode} {flow : Option Flow}
    {u : ClassMap.Update Concern} (hu : u ∈ e.updates mode flow) {k : Concern} {cs : List Text}
    (given : u.given? = some (k, cs)) {c : Text} (hc : c ∈ cs) : e.Makes c := by
  cases e with
  | clip on =>
    cases on <;> obtain rfl := List.mem_singleton.1 hu <;> cases given
    exact List.mem_singleton.1 hc
  | size token d value =>
    simp only [updates] at hu
    split at hu
    · cases hu
    · obtain ⟨f, hf, rfl⟩ := ClassMap.exists_value_of_given [] hu given hc
      rcases Fragment.built_ofSize? (d.short ++ "-") hf with other | built
      · exact .inr ⟨other, f, hf, rfl⟩
      · exact .inl built
  | spacing token axis value =>
    simp only [updates] at hu
    split at hu
    · cases hu
    · obtain ⟨f, hf, rfl⟩ := ClassMap.exists_value_of_given [] hu given hc
      exact Fragment.built_ofExtent? _ hf
  | auto token a =>
    simp only [updates] at hu
    split at hu
    · cases a with
      | flow value => exact makes_of_flow hu given hc
      | gap value =>
        simp only [AutoEntry.updates, gapUpdates] at hu
        split at hu
        · obtain rfl := List.mem_singleton.1 hu
          cases given
        · obtain ⟨f, hf, rfl⟩ := ClassMap.exists_value_of_given [] hu given hc
          exact Fragment.built_ofExtent? _ hf
      | padding items =>
        obtain ⟨i, hi, hu⟩ := List.mem_flatMap.1 hu
        cases i with
        | value kind value =>
          obtain ⟨f, hf, rfl⟩ := ClassMap.exists_value_of_given _ hu given hc
          exact ⟨kind, value, hi, Fragment.built_ofExtent? _ hf⟩
        | unknown token => cases hu
      | align value | settings items => cases hu
    · cases hu
  | marker | unclearClip | unread => cases hu

/-- What is not settled at the end of a layout is what it was. -/
theorem get?_finish_of_not_late {k : Concern} (h : k ∉ lateConcerns) (mode : Mode) (s : State) :
    (s.finish mode).draft.classes.get? k = s.draft.classes.get? k := by
  simp only [lateConcerns, List.mem_cons, List.not_mem_nil, or_false, not_or] at h
  by_cases auto : mode = .auto
  · rw [auto, s.get?_finish_auto h.1, s.get?_resolveAlignment h.2.1 h.2.2]
  · rw [State.finish, if_neg auto, State.classes_checkSize]

theorem exists_maker_of_mem_read {input : Option Text} {c : Text}
    (hc : c ∈ (read input).report.classes) : (∃ k ∈ lateConcerns, k.Spells c) ∨
      ∃ e ∈ (Mode.resolve input).tokens.flatMap Entry.ofToken, e.Makes c := by
  obtain ⟨k, hk, -, spells⟩ := (shaped_read (Mode.resolve input)).exists_of_mem hc
  by_cases late : k ∈ lateConcerns
  · exact .inl ⟨k, late, spells⟩
  · rw [get?_finish_of_not_late late, run_entries] at hk
    rcases ClassMap.exists_of_get?_foldl (fun s : State => s.draft.classes)
      (fun s e => s.classes_apply _ e) hk with empty | ⟨e, he, s, u, hu, given⟩
    · cases empty
    · exact .inr ⟨e, he, Entry.makes_of_given hu given (List.mem_singleton_self c)⟩

end Inspector.Layout
