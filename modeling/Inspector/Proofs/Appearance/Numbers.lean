import Inspector.Proofs.Appearance.Outcome
import Inspector.Proofs.Appearance.Vocabulary
import Inspector.Proofs.Number.Built

/-!
# Numbers in the classes of an appearance

Each class of an appearance is made by one of its entries, or is the opacity that is filled in at
the end. Opacities and radii make classes with numbers; an opacity that is taken always fits.

    c ∈ (read input).classes → c = "opacity-100" ∨ ∃ e ∈ entries (tokens input), e.Makes c
                                                                         (exists_maker_of_mem_read)
-/

namespace Inspector.Appearance

open Text

/-- The class is one that the entry makes; a radius of zero is named. -/
def Entry.Makes (c : Text) : Entry → Prop
  | .hidden => c = "invisible"
  | .opacity value => Fits value ∧ Built "opacity-" value c
  | .uniform value => c = "rounded-none" ∨ Built "rounded-" value c
  | .corner k value =>
    c = "rounded-" ++ k.short ++ "-none" ∨ Built ("rounded-" ++ k.short ++ "-") value c
  | .visible | .unclear _ | .unread _ => False

theorem built_radiusFragment? {value f : Text} (h : radiusFragment? value = some f) (lead : Text) :
    f = "none" ∨ Built lead value (lead ++ f) := by
  obtain ⟨q, hq, h⟩ := Option.bind_eq_some_iff.1 h
  split_ifs at h
  · exact .inl (Option.some.inj h).symm
  · split at h
    · exact .inr (Option.some.inj h ▸ .of_spelled hq rfl (Fragment.shows_inPixels lead _))
    · exact .inr (Option.some.inj h ▸ .of_spelled hq rfl (Fragment.shows_inPixels lead _))
    · exact .inr (Option.some.inj h ▸ .of_spelled hq rfl (Fragment.shows_inPercent lead _))
    · cases h

theorem Entry.makes_of_given {e : Entry} {u : ClassMap.Update Concern} (hu : u ∈ e.updates)
    {k : Concern} {cs : List Text} (given : u.given? = some (k, cs)) {c : Text} (hc : c ∈ cs) :
    e.Makes c := by
  cases e with
  | visible =>
    obtain rfl := List.mem_singleton.1 hu
    cases given
  | hidden =>
    obtain rfl := List.mem_singleton.1 hu
    cases given
    exact List.mem_singleton.1 hc
  | opacity value =>
    obtain ⟨f, hf, rfl⟩ := ClassMap.exists_value_of_given [] hu given hc
    exact Fragment.built_ofPercent? _ hf
  | uniform value =>
    obtain ⟨f, hf, rfl⟩ := ClassMap.exists_value_of_given _ hu given hc
    rcases built_radiusFragment? hf "rounded-" with rfl | built
    · exact .inl rfl
    · exact .inr built
  | corner k value =>
    obtain ⟨f, hf, rfl⟩ := ClassMap.exists_value_of_given [.radius] hu given hc
    rcases built_radiusFragment? hf ("rounded-" ++ k.short ++ "-") with rfl | built
    · exact .inl (List.append_assoc _ _ _)
    · exact .inr built
  | unclear value | unread u => cases hu

theorem exists_maker_of_get? {ts : List Token} {k : Concern} {cs : List Text}
    (hk : (run ts).draft.classes.get? k = some cs) {c : Text} (hc : c ∈ cs) :
    ∃ e ∈ entries ts, e.Makes c := by
  rw [run_eq_foldl] at hk
  rcases ClassMap.exists_of_get?_foldl (fun s : State => s.draft.classes)
    (fun s e => s.classes_apply e) hk with empty | ⟨e, he, -, u, hu, given⟩
  · cases empty
  · exact ⟨e, he, Entry.makes_of_given hu given hc⟩

theorem exists_maker_of_mem_read {input : Option Text} {c : Text} (hc : c ∈ (read input).classes) :
    c = "opacity-100" ∨ ∃ e ∈ entries (tokens input), e.Makes c := by
  unfold read at hc
  split at hc
  · simp [report, State.warn, ClassMap.classes] at hc
  · obtain ⟨k, cs, hk, hcs⟩ :=
      (State.shaped_finish (shaped_run (tokens input))).mem_classes_iff.1 hc
    rw [State.classes_finish] at hk
    split at hk
    · exact .inr (exists_maker_of_get? hk hcs)
    · rw [ClassMap.get?_insert] at hk
      split at hk
      · rw [← Option.some.inj hk] at hcs
        exact .inl (List.mem_singleton.1 hcs)
      · exact .inr (exists_maker_of_get? hk hcs)

end Inspector.Appearance
