import Inspector.Proofs.Number.Built
import Inspector.Proofs.Stroke.Outcome
import Inspector.Proofs.Stroke.Vocabulary

/-!
# Numbers in the classes of a stroke

Each class of a stroke is made by one of its entries. Opacities and weights make classes with
numbers; an opacity that is taken always fits.

    c ∈ (read input).classes → ∃ e ∈ entries (tokens input), e.Makes c      (exists_maker_of_mem_read)
-/

namespace Inspector.Stroke

open Text

/-- The class is one that the entry makes; a weight of one pixel is the lead alone. -/
def Entry.Makes (c : Text) : Entry → Prop
  | .color value => ∃ col, Color.ofText? value "border" = some col ∧ c = col.classFor "border"
  | .opacity value => Fits value ∧ Built "border-opacity-" value c
  | .style value => lower (trim value) ∈ styleWords ∧ c = "border-" ++ lower (trim value)
  | .uniform value => c = "border" ∨ Built "border-" value c
  | .side k value => c = "border-" ++ k.short ∨ Built ("border-" ++ k.short ++ "-") value c
  | .position _ | .unread _ => False

theorem built_weightClass? {lead value c : Text} (h : weightClass? lead value = some c) :
    c = lead ∨ Built (lead ++ "-") value c := by
  obtain ⟨px, hpx, rfl⟩ := Option.map_eq_some_iff.1 h
  obtain ⟨q, hq, rfl⟩ := Fragment.exists_of_pixels? (Option.eq_some_of_filter_eq_some hpx)
  split_ifs
  · exact .inl rfl
  · exact .inr (.of_spelled hq rfl .plain)
  · exact .inr (.of_spelled hq rfl (Fragment.shows_inPixels _ _))

theorem Entry.makes_of_given {e : Entry} {u : ClassMap.Update Concern} (hu : u ∈ e.updates)
    {k : Concern} {cs : List Text} (given : u.given? = some (k, cs)) {c : Text} (hc : c ∈ cs) :
    e.Makes c := by
  cases e with
  | color value =>
    exact ClassMap.exists_value_of_given [] hu given hc
  | opacity value =>
    obtain ⟨f, hf, rfl⟩ := ClassMap.exists_value_of_given [] hu given hc
    exact Fragment.built_ofPercent? _ hf
  | style value =>
    simp only [updates] at hu
    split at hu
    · next word =>
      obtain rfl := List.mem_singleton.1 hu
      cases given
      exact ⟨List.contains_iff_mem.1 word, List.mem_singleton.1 hc⟩
    · cases hu
  | uniform value =>
    obtain ⟨w, hw, rfl⟩ := ClassMap.exists_value_of_given _ hu given hc
    exact built_weightClass? hw
  | side k value =>
    obtain ⟨w, hw, rfl⟩ := ClassMap.exists_value_of_given [.weight] hu given hc
    exact built_weightClass? hw
  | position value | unread u => cases hu

theorem exists_maker_of_mem_read {input : Option Text} {c : Text} (hc : c ∈ (read input).classes) :
    ∃ e ∈ entries (tokens input), e.Makes c := by
  unfold read at hc
  split at hc
  · simp at hc
  · rw [Draft.classes_report, State.classes_finish] at hc
    obtain ⟨k, cs, hk, hcs⟩ := (shaped_run (tokens input)).mem_classes_iff.1 hc
    rw [run_eq_foldl] at hk
    rcases ClassMap.exists_of_get?_foldl (fun s : State => s.classes)
      (fun s e => State.classes_apply s e) hk with empty | ⟨e, he, -, u, hu, given⟩
    · cases empty
    · exact ⟨e, he, Entry.makes_of_given hu given hcs⟩

end Inspector.Stroke
