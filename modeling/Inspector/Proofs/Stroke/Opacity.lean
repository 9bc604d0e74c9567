import Inspector.Proofs.Opacity
import Inspector.Proofs.Stroke.Family
import Inspector.Proofs.Stroke.LastWrite
import Inspector.Proofs.Stroke.Vocabulary

/-!
# The opacity of a stroke

The last valid opacity among the tokens of a stroke is the opacity that it holds; no other token
changes it. A stroke without one has no opacity, and does not miss it.

    (entries ts).filterMap Entry.opacity? = ts.filterMap Token.opacity?           (opacities_entries)
    (run ts).classes.get? .opacity = the class of lastOpacity ts                     (opacity_run)
    ts ≠ [] → ShowsLast ts (reading ts)                                       (showsLast_reading)
-/

namespace Inspector.Stroke

open Text

/-! ## What a token gives -/

namespace Entry

/-- The opacity that an entry gives, be it valid or not. -/
def opacity? : Entry → Option Text
  | .opacity value => some value
  | _ => none

theorem opacity?_eq_none {e : Entry} (h : e.family ≠ .opacity) : e.opacity? = none := by
  cases e with
  | opacity => exact absurd rfl h
  | _ => rfl

end Entry

theorem family_eq_opacity_iff (t : Token) : family t = .opacity ↔ t.opacity?.isSome := by
  cases t with
  | bare text =>
    simp only [family, Token.opacity?]
    split_ifs <;> simp
  | pair key value =>
    simp only [family, Token.opacity?]
    by_cases h : lower key = "opacity"
    · rw [h]
      exact iff_of_true rfl rfl
    · simp only [keyFamily, if_neg h]
      split_ifs <;> simp

theorem opacities_entries (ts : List Token) :
    (entries ts).filterMap Entry.opacity? = ts.filterMap Token.opacity? := by
  refine Token.filterMap_opacity (fun {t} h e he => Entry.opacity?_eq_none fun hf => ?_)
    (fun hk => by rw [Entry.ofToken, hk]; rfl) ts
  rw [family_of_mem he, family_eq_opacity_iff, h] at hf
  cases hf

/-! ## Runs -/

namespace State

/-- The classes of an opacity. -/
def shown (f : Text) : List Text := ["border-opacity-" ++ f]

theorem opacity_apply (s : State) (e : Entry) : (s.apply e).classes.get? .opacity =
    ((e.opacity?.bind Fragment.ofPercent?).map shown).or (s.classes.get? .opacity) := by
  rw [classes_apply]
  cases e with
  | opacity value =>
    simp only [Entry.updates, Entry.opacity?, Option.bind_some]
    cases Fragment.ofPercent? value with
    | none => rfl
    | some f => exact ClassMap.get?_set_self _ _ _
  | color value =>
    refine ClassMap.get?_after_of_not_mem _ ?_
    simp only [Entry.updates]
    cases Color.ofText? value "border" <;> simp [ClassMap.Update.concern]
  | style value =>
    refine ClassMap.get?_after_of_not_mem _ ?_
    simp only [Entry.updates]
    split <;> simp [ClassMap.Update.concern]
  | uniform value =>
    refine ClassMap.get?_after_of_not_mem _ ?_
    simp only [Entry.updates]
    cases weightClass? "border" value <;> simp [ClassMap.Update.concern]
  | side k value =>
    refine ClassMap.get?_after_of_not_mem _ ?_
    simp only [Entry.updates]
    cases weightClass? ("border-" ++ k.short) value <;> simp [ClassMap.Update.concern]
  | position _ | unread _ => rfl

end State

/-- A stroke holds the last valid opacity, if there is any. -/
theorem opacity_run (ts : List Token) : (run ts).classes.get? .opacity =
    (lastOpacity ts).map State.shown := by
  have last := latest?_foldl (fun s : State => s.classes.get? .opacity) State.opacity_apply
    (entries ts) {}
  rw [run_eq_foldl, lastOpacity, ← opacities_entries, List.filterMap_filterMap, ← List.getLast?_map,
    List.map_filterMap]
  exact last.trans Option.or_none

/-! ## Reports -/

/-- What a report says of the opacity that the tokens of a stroke give. -/
structure ShowsLast (ts : List Token) (report : Report) : Prop where
  opacity : (run ts).finish.classes.get? .opacity =
    (lastOpacity ts).map fun f => ["border-opacity-".toList ++ f]
  held : (run ts).finish.contains .opacity ↔
    ∃ t ∈ ts, ∃ value f, t.opacity? = some value ∧ Fragment.ofPercent? value = some f
  emitted : ∀ f, lastOpacity ts = some f → "border-opacity-".toList ++ f ∈ report.classes

theorem showsLast_reading {ts : List Token} (written : ts ≠ []) : ShowsLast ts (reading ts) := by
  have last := opacity_run ts
  refine ⟨?_, ?_, fun f hf => ?_⟩
  · rw [State.classes_finish]
    exact last
  · rw [Draft.contains_eq, State.classes_finish, ClassMap.contains, last, Option.isSome_map,
      isSome_lastOpacity_iff]
  · rw [classes_reading written]
    rw [hf, Option.map_some] at last
    exact (shaped_run ts).mem_classes_iff.2 ⟨.opacity, _, last, List.mem_singleton_self _⟩

end Inspector.Stroke
