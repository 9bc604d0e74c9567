import Inspector.Proofs.Fill.Run
import Inspector.Proofs.Number.Built

/-!
# Numbers in the classes of a fill

Each class of a fill is made by the entry of one of its tokens, or is the opacity that is filled in
at the end. Only opacities make classes with numbers, and one that is taken always fits.

    c ∈ (read input).classes →
      c = "bg-opacity-100" ∨ ∃ t ∈ tokens input, (Entry.ofToken t).Makes c
                                                                         (exists_maker_of_mem_read)
-/

namespace Inspector.Fill

open Text

/-- The class is one that the entry makes. -/
def Entry.Makes (c : Text) : Entry → Prop
  | .color value => ∃ col, Color.ofText? value "bg" = some col ∧ c = col.classFor "bg"
  | .opacity value => Fits value ∧ Built "bg-opacity-" value c
  | .image value =>
    (∃ r, Image.ofText? value = some r ∧ c = "bg-[url(" ++ r ++ ")]") ∨ c ∈ presentation.map (·.2)
  | .kind _ | .unknownKey _ | .unrecognized _ => False

/-- Every class is one that an entry of one of the tokens makes. -/
abbrev Made (ts : List Token) (_ : Concern) (cs : List Text) : Prop :=
  ∀ c ∈ cs, ∃ t ∈ ts, (Entry.ofToken t).Makes c

variable {ts : List Token} {t : Token}

theorem made_withImage {m : ClassMap Concern} (h : m.Obeys (Made ts)) {value r : Text}
    (hr : Image.ofText? value = some r) (ht : t ∈ ts) (image : Entry.ofToken t = .image value)
    (s : State) : (s.withImage m r).Obeys (Made ts) := by
  have made {c : Text} (hc : (Entry.image value).Makes c) (k : Concern) : Made ts k [c] := by
    intro c' hc'
    rw [List.mem_singleton.1 hc']
    exact ⟨t, ht, image ▸ hc⟩
  have reference := h.set (made (.inl ⟨r, hr, rfl⟩) .url)
  unfold State.withImage
  dsimp only
  split
  · exact reference
  · exact List.foldlRecOn presentation _ reference fun m hm p hp =>
      hm.insert (made (.inr (List.mem_map_of_mem hp)) p.1)

theorem Change.made {s s' : State} (h : s.draft.classes.Obeys (Made ts)) (ht : t ∈ ts)
    (hc : s.Change (Entry.ofToken t) s') : s'.draft.classes.Obeys (Made ts) := by
  generalize he : Entry.ofToken t = e at hc
  cases hc with
  | refused _ | unread _ | solidKind _ => exact h
  | opacity hf =>
    refine h.set fun c hc => ⟨t, ht, ?_⟩
    rw [List.mem_singleton.1 hc, he]
    exact Fragment.built_ofPercent? _ hf
  | color _ hcol =>
    refine h.set fun c hc => ⟨t, ht, ?_⟩
    rw [List.mem_singleton.1 hc, he]
    exact ⟨_, hcol, rfl⟩
  | imageKind => exact h.erase .color
  | solidOverImage _ => exact h.eraseAll _
  | firstImage _ hr => exact made_withImage h hr ht he s
  | imageOverColor _ hr => exact made_withImage (h.erase .color) hr ht he s
  | nextImage _ hr => exact made_withImage h hr ht he s

theorem made_run (ts : List Token) : (run ts).draft.classes.Obeys (Made ts) :=
  List.foldlRecOn ts State.step .empty fun s h t ht =>
    Change.made h ht (s.change_apply (Entry.ofToken t))

theorem exists_maker_of_mem_read {input : Option Text} {c : Text} (hc : c ∈ (read input).classes) :
    c = "bg-opacity-100" ∨ ∃ t ∈ tokens input, (Entry.ofToken t).Makes c := by
  have made := made_run (tokens input)
  unfold read at hc
  split at hc
  · simp at hc
  · have held : c ∈ (run (tokens input)).finish.draft.classes.classes := hc
    obtain ⟨e, he, hce⟩ := (ClassMap.mem_classes_iff _ c).1 held
    rw [State.classes_finish] at he
    split at he
    · exact .inr (made.shaped e he c hce)
    · rcases List.mem_append.1 he with kept | filled
      · exact .inr (made.shaped e ((ClassMap.mem_entries_erase_iff _ _ e).1 kept).1 c hce)
      · rw [List.mem_singleton.1 filled] at hce
        exact .inl (List.mem_singleton.1 hce)

end Inspector.Fill
