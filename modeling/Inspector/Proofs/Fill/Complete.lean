import Inspector.Proofs.Fill.Kind
import Inspector.Proofs.Fill.Vocabulary

/-!
# Fills without errors

An opacity that was seen is held, in the words of a token, unless an error says why it is not. With
the links between the type and its values, a fill without errors has an opacity and either a color
or an image with its presentation, and never both.

    (run ts).opacitySeen → (run ts).draft.errors = [] → an opacity of ts is held     (opacity_run)
    (read input).errors = [] → tokens input = [] ∨ Filled (tokens input)          (filled_of_read)
-/

namespace Inspector.Fill

open Text

namespace State

/-- The opacity in the map is one that a token of `ts` gives. -/
def HoldsOpacityOf (ts : List Token) (s : State) : Prop :=
  ∃ t ∈ ts, ∃ value f, Entry.ofToken t = .opacity value ∧ Fragment.ofPercent? value = some f ∧
    s.draft.classes.get? .opacity = some ["bg-opacity-" ++ f]

theorem HoldsOpacityOf.mono {ts ts' : List Token} {s s' : State} (h : s.HoldsOpacityOf ts)
    (hts : ts ⊆ ts')
    (hs : s'.draft.classes.get? .opacity = s.draft.classes.get? .opacity) :
    s'.HoldsOpacityOf ts' := by
  obtain ⟨t, ht, value, f, hv, hf, hm⟩ := h
  exact ⟨t, hts ht, value, f, hv, hf, hs.trans hm⟩

theorem get?_opacity_withImage (s : State) (m : ClassMap Concern) (r : Text) :
    (s.withImage m r).get? .opacity = m.get? .opacity := by
  cases hs : s.seeded <;>
    simp [withImage, hs, presentation, ClassMap.get?_set, ClassMap.get?_insert]

/-- A change without an error keeps the opacity unless it sets it. -/
theorem Change.opacity_set_or_kept {s s' : State} {e : Entry} (hc : s.Change e s')
    (herr : s'.draft.errors = []) :
    (∃ value f, e = .opacity value ∧ Fragment.ofPercent? value = some f ∧
      s'.draft.classes.get? .opacity = some ["bg-opacity-" ++ f]) ∨
    s.draft.errors = [] ∧ s'.opacitySeen = s.opacitySeen ∧
      s'.draft.classes.get? .opacity = s.draft.classes.get? .opacity := by
  cases hc with
  | refused _ => simp at herr
  | unread _ | solidKind _ => exact .inr ⟨herr, rfl, rfl⟩
  | opacity hf => exact .inl ⟨_, _, rfl, hf, by simp [ClassMap.get?_set]⟩
  | color _ _ => exact .inr ⟨herr, rfl, by simp [ClassMap.get?_set]⟩
  | imageKind => exact .inr ⟨herr, rfl, by simp [ClassMap.get?_erase]⟩
  | solidOverImage _ =>
    exact .inr ⟨herr, rfl, by simp [ClassMap.get?_eraseAll, presentation]⟩
  | firstImage _ _ | nextImage _ _ => exact .inr ⟨herr, rfl, get?_opacity_withImage _ _ _⟩
  | imageOverColor _ _ =>
    refine .inr ⟨herr, rfl, (get?_opacity_withImage _ _ _).trans ?_⟩
    simp [ClassMap.get?_erase]

end State

/-- An opacity that was seen is held unless there is an error. -/
theorem opacity_run (ts : List Token) (hseen : (run ts).opacitySeen)
    (herr : (run ts).draft.errors = []) : (run ts).HoldsOpacityOf ts := by
  induction ts using List.reverseRecOn with
  | nil => simp [run] at hseen
  | append_singleton ts t ih =>
    rw [run_concat] at hseen herr ⊢
    rcases ((run ts).change_apply (Entry.ofToken t)).opacity_set_or_kept herr with
      ⟨value, f, he, hf, hm⟩ | ⟨herr', hs, hm⟩
    · exact ⟨t, by simp, value, f, he, hf, hm⟩
    · exact (ih (hs ▸ hseen) herr').mono (List.subset_append_left ts [t]) hm

/-! ## Completeness -/

/-- What the tokens of a fill without errors come to. -/
structure Filled (ts : List Token) : Prop where
  opacity : ∃ t ∈ ts, ∃ value f, Entry.ofToken t = .opacity value ∧
    Fragment.ofPercent? value = some f ∧
    (run ts).draft.classes.get? .opacity = some ["bg-opacity-" ++ f]
  /-- Either a color or an image. -/
  value :
    (run ts).kind? = some .solid ∧ (run ts).draft.contains .color ∧
      ¬ (run ts).draft.contains .url ∨
    (run ts).kind? = some .image ∧ (run ts).draft.contains .url ∧
      (run ts).draft.classes.get? .size = some ["bg-cover".toList] ∧
      (run ts).draft.classes.get? .position = some ["bg-center".toList] ∧
      (run ts).draft.classes.get? .tiling = some ["bg-no-repeat".toList] ∧
      ¬ (run ts).draft.contains .color

theorem get?_of_contains {m : ClassMap Concern} (h : m.Obeys Shape) {k : Concern} {c : Text}
    (hk : m.contains k) (only : ∀ c', k.Spells c' → c' = c) : m.get? k = some [c] := by
  obtain ⟨cs, hcs⟩ := Option.isSome_iff_exists.1 hk
  obtain ⟨c', rfl, hc'⟩ := h.of_get? hcs
  rw [hcs, only c' hc']

theorem filled_of_errors_eq_nil {ts : List Token} (h : (run ts).finish.draft.errors = []) :
    Filled ts := by
  obtain ⟨herr, hd, hcolor, himage, hseen⟩ := (run ts).errors_finish_eq_nil_iff.1 h
  have linked := linked_run ts
  refine ⟨opacity_run ts hseen herr, ?_⟩
  obtain ⟨⟨kind, given⟩, hdec⟩ := Option.ne_none_iff_exists'.1 hd
  cases kind with
  | solid =>
    have hk : (run ts).kind? = some .solid := by simp [State.kind?, hdec]
    exact .inl ⟨hk, hcolor hk, fun hu => linked.not_both ⟨hcolor hk, hu⟩⟩
  | image =>
    have hk : (run ts).kind? = some .image := by simp [State.kind?, hdec]
    have hu := himage hk
    have presented : ∀ p ∈ presentation, (run ts).draft.classes.contains p.1 :=
      fun p hp => (linked.presented p hp).trans hu
    refine .inr ⟨hk, hu, ?_, ?_, ?_, fun hc => linked.not_both ⟨hc, hu⟩⟩
    · exact get?_of_contains (shaped_run ts) (presented (.size, "bg-cover") (by decide))
        fun _ h => h
    · exact get?_of_contains (shaped_run ts) (presented (.position, "bg-center") (by decide))
        fun _ h => h
    · exact get?_of_contains (shaped_run ts) (presented (.tiling, "bg-no-repeat") (by decide))
        fun _ h => h

/-- A fill without errors is empty or has an opacity and a value. -/
theorem filled_of_read {input : Option Text} (h : (read input).errors = []) :
    tokens input = [] ∨ Filled (tokens input) := by
  unfold read at h
  split at h
  · next ht => exact .inl ht
  · exact .inr (filled_of_errors_eq_nil ((Draft.errors_report_eq_nil_iff ..).1 h))

end Inspector.Fill
