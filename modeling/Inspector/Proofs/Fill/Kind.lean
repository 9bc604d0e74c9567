import Inspector.Proofs.Fill.Run
import Mathlib.Data.List.Induction

/-!
# The type of a fill and its values

In every state that the tokens of a fill lead to, the color and the image fit the type: a color is
held by a solid fill only, an image by an image fill only, and the classes of the presentation are
there exactly as long as an image is. So the end of a fill misses a value exactly when the type
has none, and misses the type exactly when no token gave or implied one.

    (run ts).Linked                                                                 (linked_run)
    (run ts).decision = none ↔ no token of ts is taken                 (decision_run_eq_none_iff)
    .missingKind ∈ (run ts).finish.draft.errors ↔ no token of ts is taken
                                                                  (missingKind_mem_finish_iff)
-/

namespace Inspector.Fill

open Text

namespace State

/-! ## The invariant -/

/-- The type of a fill, its color and its image fit each other. -/
structure Linked (s : State) : Prop where
  color : s.draft.contains .color → s.kind? = some .solid
  url : s.draft.contains .url → s.kind? = some .image
  inferred : s.decision = some ⟨.solid, false⟩ → s.draft.contains .color
  seeded : s.seeded = s.draft.contains .url
  presented : ∀ p ∈ presentation, s.draft.contains p.1 = s.draft.contains .url

theorem contains_withImage (s : State) (m : ClassMap Concern) (r : Text) (k : Concern) :
    (s.withImage m r).contains k =
      (decide (k = .url) || m.contains k ||
        !s.seeded && decide (k ∈ presentation.map (·.1))) := by
  cases hs : s.seeded <;> cases k <;> simp [withImage, hs, presentation]

theorem linked_init : Linked {} := by
  constructor <;> simp [presentation]

/-- A color or an image is held by a fill of its own kind, so never both. -/
theorem Linked.not_both {s : State} (h : s.Linked) :
    ¬ (s.draft.contains .color ∧ s.draft.contains .url) := by
  rintro ⟨hc, hu⟩
  have := (h.color hc).symm.trans (h.url hu)
  simp at this

/-- Whatever is no image is solid once a color infers the type. -/
theorem kind_or_solid {s : State} (hk : s.kind? ≠ some .image) :
    (s.decision.or (some ⟨.solid, false⟩)).map Decision.kind = some .solid := by
  cases hd : s.decision with
  | none => rfl
  | some d =>
    cases hkind : d.kind with
    | solid => simp [hkind]
    | image => exact absurd (by simp [kind?, hd, hkind]) hk

theorem Linked.change {s s' : State} {e : Entry} (h : s.Linked) (hc : s.Change e s') :
    s'.Linked := by
  have hboth := h.not_both
  obtain ⟨hcol, hurl, hinf, hseed, hpres⟩ := h
  simp only [presentation, List.forall_mem_cons, Draft.contains_eq] at hpres
  cases hc with
  | refused _ => exact ⟨hcol, hurl, hinf, hseed, by simpa [presentation] using hpres⟩
  | unread _ => exact ⟨hcol, hurl, hinf, hseed, by simpa [presentation] using hpres⟩
  | opacity _ => constructor <;> simp_all [presentation, kind?]
  | color hk _ =>
    -- No image is held, or the type would be image; so the type is solid, given or inferred.
    have hu : s.draft.classes.contains .url = false := by
      by_contra hu
      exact hk (hurl (by simpa using hu))
    constructor
    · exact fun _ => kind_or_solid hk
    · simp [hu]
    · simp
    · simp [hseed, hu]
    · simp [presentation, hpres, hu]
  | imageKind => constructor <;> simp_all [presentation, kind?]
  | solidKind _ => constructor <;> simp_all [presentation, kind?]
  | solidOverImage _ => constructor <;> simp_all [presentation, kind?]
  | firstImage hd _ => constructor <;> simp_all [presentation, kind?, contains_withImage]
  | imageOverColor hd _ => constructor <;> simp_all [presentation, kind?, contains_withImage]
  | nextImage hk _ => constructor <;> simp_all [presentation, kind?, contains_withImage]

/-! ## What decides the type -/

/-- A type, a color or an image that the state `s` takes without an error. -/
def Takes (s : State) (t : Token) : Prop :=
  (Entry.ofToken t).decides ∧ (s.step t).draft.errors = s.draft.errors

theorem decision_step_eq_none_iff (s : State) (t : Token) :
    (s.step t).decision = none ↔ s.decision = none ∧ ¬ s.Takes t := by
  have hc : s.Change (Entry.ofToken t) (s.step t) := s.change_apply _
  unfold Takes
  generalize Entry.ofToken t = e at hc ⊢
  generalize s.step t = s' at hc ⊢
  cases hc with
  | refused _ => simp
  | unread h => simp [h]
  | opacity _ => simp [Entry.decides]
  | nextImage hk _ =>
    have : s.decision ≠ none := by
      intro h
      simp [kind?, h] at hk
    simp [Entry.decides, this]
  | _ => simp [Entry.decides]

end State

open State

theorem linked_run (ts : List Token) : (run ts).Linked :=
  run_invariant linked_init Linked.change ts

theorem decision_run_eq_none_iff (ts : List Token) :
    (run ts).decision = none ↔ ∀ pre t post, ts = pre ++ t :: post → ¬ (run pre).Takes t := by
  induction ts using List.reverseRecOn with
  | nil => simp [run]
  | append_singleton ts t ih =>
    rw [run_concat, decision_step_eq_none_iff, ih]
    constructor
    · rintro ⟨hts, ht⟩ pre t' post h
      rcases List.eq_nil_or_concat post with rfl | ⟨post', u, rfl⟩
      · obtain ⟨rfl, h'⟩ := List.append_inj' h rfl
        obtain rfl : t = t' := by simpa using h'
        exact ht
      · have h' : ts ++ [t] = (pre ++ t' :: post') ++ [u] := by simpa using h
        exact hts pre t' post' (List.append_inj' h' rfl).1
    · intro h
      refine ⟨fun pre t' post hpre => h pre t' (post ++ [t]) (by simp [hpre]), ?_⟩
      exact h ts t [] rfl

/-! ## The end -/

theorem missingKind_mem_finish_iff (ts : List Token) :
    .missingKind ∈ (run ts).finish.draft.errors ↔
      ∀ pre t post, ts = pre ++ t :: post → ¬ (run pre).Takes t := by
  rw [← decision_run_eq_none_iff, mem_errors_finish_iff]
  have := run_not_missing ts .missingKind
  simp_all [Error.isMissing]

theorem missingColor_mem_finish_iff (ts : List Token) :
    .missingColor ∈ (run ts).finish.draft.errors ↔
      (run ts).kind? = some .solid ∧ ¬ (run ts).draft.contains .color := by
  rw [mem_errors_finish_iff]
  have := run_not_missing ts .missingColor
  simp_all [Error.isMissing]

theorem missingImage_mem_finish_iff (ts : List Token) :
    .missingImage ∈ (run ts).finish.draft.errors ↔
      (run ts).kind? = some .image ∧ ¬ (run ts).draft.contains .url := by
  rw [mem_errors_finish_iff]
  have := run_not_missing ts .missingImage
  simp_all [Error.isMissing]

/-- The presentation is there to the end exactly as long as the image is. -/
theorem presented_finish (ts : List Token) :
    ∀ p ∈ presentation,
      (run ts).finish.draft.contains p.1 = (run ts).finish.draft.contains .url := by
  intro p hp
  have hne : p.1 ≠ .opacity := by
    intro h
    simp only [presentation, List.mem_cons, List.not_mem_nil, or_false] at hp
    rcases hp with rfl | rfl | rfl <;> simp at h
  have h := (linked_run ts).presented p hp
  rw [Draft.contains_eq, Draft.contains_eq, classes_finish]
  split <;> simpa [hne] using h

/-! ## The type and its values -/

/-- In every state of a fill its type, its values and the presentation of its image fit each other.
At the end the color, the image or the type is missed exactly when the type has no value of its
kind or no token decided it, and the report says so unless nothing was written at all. -/
theorem kind_fits_values (ts : List Token) (input : Option Text) :
    (run ts).Linked ∧
    ¬ ((run ts).draft.contains .color ∧ (run ts).draft.contains .url) ∧
    (.missingColor ∈ (run ts).finish.draft.errors ↔
      (run ts).kind? = some .solid ∧ ¬ (run ts).draft.contains .color) ∧
    (.missingImage ∈ (run ts).finish.draft.errors ↔
      (run ts).kind? = some .image ∧ ¬ (run ts).draft.contains .url) ∧
    (.missingKind ∈ (run ts).finish.draft.errors ↔
      ∀ pre t post, ts = pre ++ t :: post → ¬ (run pre).Takes t) ∧
    (∀ p ∈ presentation,
      (run ts).finish.draft.contains p.1 = (run ts).finish.draft.contains .url) ∧
    ("fill: solid fill requires a color".toList ∈ (read input).errors ↔
      (run (tokens input)).kind? = some .solid ∧ ¬ (run (tokens input)).draft.contains .color) ∧
    ("fill: image fill requires a url".toList ∈ (read input).errors ↔
      (run (tokens input)).kind? = some .image ∧ ¬ (run (tokens input)).draft.contains .url) ∧
    ("fill: missing fill type".toList ∈ (read input).errors ↔
      tokens input ≠ [] ∧
        ∀ pre t post, tokens input = pre ++ t :: post → ¬ (run pre).Takes t) := by
  have written : ∀ k, (run (tokens input)).kind? = some k → tokens input ≠ [] := by
    intro k hk hnil
    rw [hnil] at hk
    simp [run, kind?] at hk
  refine ⟨linked_run ts, (linked_run ts).not_both, missingColor_mem_finish_iff ts,
    missingImage_mem_finish_iff ts, missingKind_mem_finish_iff ts, presented_finish ts, ?_, ?_, ?_⟩
  · refine (mem_errors_read_iff input (show Error.isMissing .missingColor from rfl)).trans ?_
    rw [missingColor_mem_finish_iff]
    exact and_iff_right_of_imp fun h => written _ h.1
  · refine (mem_errors_read_iff input (show Error.isMissing .missingImage from rfl)).trans ?_
    rw [missingImage_mem_finish_iff]
    exact and_iff_right_of_imp fun h => written _ h.1
  · refine (mem_errors_read_iff input (show Error.isMissing .missingKind from rfl)).trans ?_
    rw [missingKind_mem_finish_iff]

/-- An image that replaces an inferred color keeps the size that came with it. -/
theorem image_over_color_keeps_size :
    let ts : List Token := [.pair "color" "white", .pair "url" "/a.png"]
    (Concern.size, "bg-cover".toList) ∈ presentation ∧
      (run ts).finish.draft.contains .size = (run ts).finish.draft.contains .url := by
  intro ts
  have size : (Concern.size, "bg-cover".toList) ∈ presentation := by decide
  exact ⟨size, (kind_fits_values ts none).2.2.2.2.2.1 _ size⟩

/-- Nothing decides the type of an empty fill, and yet no type is missed: an absent fill is valid. -/
theorem empty_fill_misses_no_kind :
    ¬ ("fill: missing fill type".toList ∈ (read (some [])).errors ↔
      ∀ pre t post, tokens (some []) = pre ++ t :: post → ¬ (run pre).Takes t) := by
  have silent : "fill: missing fill type".toList ∉ (read (some [])).errors := by decide
  intro h
  refine silent (h.2 fun pre t post hpre => ?_)
  simp [tokens, tokenize_nil] at hpre

end Inspector.Fill
