import Inspector.Proofs.Appearance.Family
import Inspector.Proofs.Appearance.Run
import Inspector.Proofs.Bundle.Spelling
import Inspector.Proofs.Draft.Gain

/-!
# The spellings of an appearance's corners

Every spelling of the radius of one corner is read as the same entry, so an appearance reads the
same with any of them, whatever stands around it. A bundle of radii in order is the bundle of the
corners by name, with one more warning for each radius behind the fourth.

    k.IsSpelled v text → k.IsSpelled v text' →
      read (some (amid before after text)) = read (some (amid before after text'))    (read_spelled)
    (read of the corners by name).Gains lines (read of the radii in order)           (gains_bundle)
-/

namespace Inspector.Appearance

open Text Inspector.Group

theorem Corner.clear : Corner.parts.Clear where
  complete k := by cases k <;> decide
  plain k := by cases k <;> decide
  named k := by cases k <;> decide
  apart k j := by cases k <;> cases j <;> decide
  unwrapped h := by simp [Corner.parts, h]

def Corner.leads : List Text := ["radius-", "corner-radius-", "rounded-"]

def radiusKeys : List Text := ["radius", "corner-radius", "rounded"]

abbrev Corner.IsSpelled : Corner → Text → Text → Prop :=
  Corner.parts.IsSpelled Corner.leads radiusKeys

namespace Entry

/-- No key of an appearance's own begins like the key of a corner. -/
theorem ofPair_of_cornerOfKey? {key : Text} {k : Corner} (h : cornerOfKey? key = some k)
    (v : Text) : ofPair key v = [.corner k v] := by
  have other {own : Text} (none : cornerOfKey? own = none) : key ≠ own := by
    rintro rfl
    rw [h] at none
    cases none
  unfold ofPair
  rw [if_neg (not_or.2 ⟨other (by decide), other (by decide)⟩), if_neg (other (by decide)),
    if_neg (not_or.2 ⟨other (by decide), not_or.2 ⟨other (by decide), other (by decide)⟩⟩),
    if_neg (not_or.2 ⟨other (by decide), other (by decide)⟩), h]

theorem ofToken_of_radii {key value inner : Text} (hkey : key ∈ radiusKeys)
    (h : strip? value = some inner) :
    ofToken (.pair key value) = (Bundle.entries Corner.parts inner).map ofBundle := by
  have lowered : ∀ key ∈ radiusKeys, lower key = key := by decide
  have own : key = "radius" ∨ key = "corner-radius" ∨ key = "rounded" := by
    simpa [radiusKeys] using hkey
  rw [ofToken, lowered key hkey]
  rcases own with rfl | rfl | rfl
  · simp [ofPair, h]
  · simp [ofPair, h]
  · simp [ofPair, h]

/-- Every spelling of the radius of a corner is one token, which asks for that radius and no
more. -/
theorem ofToken_of_isSpelled {k : Corner} {v text : Text} (plain : IsPlain v)
    (h : k.IsSpelled v text) : ∃ t, IsToken text t ∧ ofToken t = [.corner k v] := by
  have keyed : ∀ lead ∈ Corner.leads, ∀ a ∈ Corner.parts.aliases k,
      IsPlain (lead ++ a) ∧ cornerOfKey? (lower (lead ++ a)) = some k := by cases k <;> decide
  have plainKeys : ∀ key ∈ radiusKeys, IsPlain key := by decide
  rcases h.token Corner.clear (fun lead hl a ha => (keyed lead hl a ha).1) plainKeys plain with
    ⟨lead, hlead, a, ha, ht⟩ | ⟨key, hkey, value, inner, ht, hs, he⟩
  · exact ⟨_, ht, ofPair_of_cornerOfKey? (keyed lead hlead a ha).2 v⟩
  · refine ⟨_, ht, ?_⟩
    rw [ofToken_of_radii hkey hs, he]
    rfl

end Entry

/-! ## Warnings in front -/

namespace State

variable (s : State) (ws : List Warning)

/-- The state with further warnings before its own. -/
def preceded (ws : List Warning) (s : State) : State := { s with draft := s.draft.preceded ws }

def unwarned : State := { s with draft := s.draft.unwarned }

theorem preceded_unwarned : s.unwarned.preceded s.draft.warnings = s :=
  congrArg (fun d => { s with draft := d }) s.draft.preceded_unwarned

theorem preceded_error (e : Error) : (s.preceded ws).error e = (s.error e).preceded ws := rfl

theorem preceded_warn (w : Warning) : (s.preceded ws).warn w = (s.warn w).preceded ws := by
  simp [preceded, warn]

theorem preceded_apply (e : Entry) : (s.preceded ws).apply e = (s.apply e).preceded ws := by
  cases e with
  | visible | hidden | unclear => rfl
  | opacity value =>
    simp only [apply, setOpacity]
    cases Fragment.ofPercent? value <;> simp [preceded, error]
  | uniform value =>
    simp only [apply, setUniform]
    cases radiusFragment? value <;> simp [preceded, error]
  | corner k value =>
    simp only [apply, setCorner]
    cases radiusFragment? value <;> simp [preceded, error]
  | unread u => exact s.preceded_warn ws _

theorem preceded_step (t : Token) : (s.preceded ws).step t = (s.step t).preceded ws :=
  List.foldl_hom (preceded ws) fun s e => s.preceded_apply ws e

theorem preceded_finish : (s.preceded ws).finish = s.finish.preceded ws := by
  unfold finish
  cases hv : s.visibilitySeen <;> cases ho : s.opacitySeen <;>
    cases h : s.draft.classes.contains .opacity <;> simp [preceded, error, hv, ho, h]

theorem foldl_warn : ws.foldl warn s = s.unwarned.preceded (s.draft.warnings ++ ws) := by
  have drafts : ws.foldl warn s = { s with draft := ws.foldl Draft.warn s.draft } := by
    induction ws generalizing s with
    | nil => rfl
    | cons w ws ih => exact ih (s.warn w)
  rw [drafts, Draft.foldl_warn]
  rfl

/-- A token with further advice leaves the same, with further warnings at the end. -/
theorem step_of_append {t t' : Token} {us : List Unread}
    (h : Entry.ofToken t' = Entry.ofToken t ++ us.map .unread) :
    s.step t' = (us.map Warning.unread).foldl warn (s.step t) := by
  rw [step, h, List.foldl_append, List.foldl_map, List.foldl_map]
  rfl

end State

/-! ## Readings -/

theorem reading_append_cons (ts us : List Token) (t : Token) :
    reading (ts ++ t :: us) = report (us.foldl State.step ((run ts).step t)).finish.draft := by
  rw [reading_of_ne_nil (by simp), run, List.foldl_append]
  rfl

/-- Further advice in a token adds its warnings to an appearance and changes nothing else. -/
theorem gains_of_append {t t' : Token} {advice : List Unread}
    (h : Entry.ofToken t' = Entry.ofToken t ++ advice.map .unread) (ts us : List Token) :
    (reading (ts ++ t :: us)).Gains
      (advice.map fun u => Property.name .appearance ++ ": " ++ Warning.message (.unread u))
      (reading (ts ++ t' :: us)) := by
  rw [reading_append_cons, reading_append_cons, State.step_of_append _ h, State.foldl_warn]
  generalize (run ts).step t = s
  have front (ws : List Warning) : (us.foldl State.step (s.unwarned.preceded ws)).finish =
      (us.foldl State.step s.unwarned).finish.preceded ws := by
    rw [List.foldl_hom (State.preceded ws) fun s t => s.preceded_step ws t, State.preceded_finish]
  have own := front s.draft.warnings
  rw [s.preceded_unwarned] at own
  have gains := Draft.gains_report (us.foldl State.step s.unwarned).finish.draft .appearance
    Error.message Warning.message s.draft.warnings (advice.map .unread)
  rw [List.map_map] at gains
  rw [front, own]
  exact gains

section

variable {before : List Text} (closed : ∀ p ∈ before, depthAfter 0 p = 0) (after : List Text)

include closed

theorem read_amid {text : Text} {t : Token} (h : IsToken text t) :
    read (some (amid before after text)) =
      reading (before.flatMap tokenize ++ t :: tokenize (joined "," after)) := by
  rw [read_eq, tokens, Option.elim_some, tokenize_amid closed h]

/-- All spellings of the radius of a corner are read alike. -/
theorem read_spelled {k : Corner} {v text text' : Text} (plain : IsPlain v)
    (h : k.IsSpelled v text) (h' : k.IsSpelled v text') :
    read (some (amid before after text)) = read (some (amid before after text')) := by
  obtain ⟨t, ht, he⟩ := Entry.ofToken_of_isSpelled plain h
  obtain ⟨t', ht', he'⟩ := Entry.ofToken_of_isSpelled plain h'
  rw [read_amid closed after ht, read_amid closed after ht', reading_append_cons,
    reading_append_cons, State.step, he, State.step, he']

/-- Radii in order read like those of the corners by name, but for the warnings about the radii
behind the fourth. -/
theorem gains_bundle {o c : Char} (hoc : closerOf? o = some c) {key : Text}
    (hkey : key ∈ radiusKeys) {vs : List Text} (plain : ∀ v ∈ vs, IsPlain v)
    (written : ∀ v ∈ vs, v ≠ []) (free : ∀ v ∈ vs, Corner.parts.ofItem? v = none) :
    (read (some (amid before after
        (grouped o c key (Corner.parts.assigned Corner.short vs))))).Gains
      ((vs.drop 4).map fun v =>
        "appearance: corner radius takes at most four values; '" ++ v ++ "' was ignored")
      (read (some (amid before after (grouped o c key (joined "," vs))))) := by
  have plainKey : IsPlain key := (by decide : ∀ key ∈ radiusKeys, IsPlain key) key hkey
  have named (k : Corner) : k.short ∈ Corner.parts.aliases k := by cases k <;> decide
  obtain ⟨value, ht, hs⟩ := IsToken.exists_grouped hoc plainKey
    (Bundle.isBalanced_assigned Corner.clear named plain)
  obtain ⟨value', ht', hs'⟩ := IsToken.exists_grouped hoc plainKey
    (tokenize_joined (Bundle.isToken_values plain written)).2
  have entries : Entry.ofToken (.pair key value') =
      Entry.ofToken (.pair key value) ++ ((vs.drop 4).map Unread.surplus).map .unread := by
    rw [Entry.ofToken_of_radii hkey hs, Entry.ofToken_of_radii hkey hs',
      Bundle.entries_joined Corner.clear named plain written free, List.map_append, List.map_map,
      List.map_map]
    rfl
  have gains := gains_of_append entries (before.flatMap tokenize) (tokenize (joined "," after))
  rw [List.map_map, ← read_amid closed after ht, ← read_amid closed after ht'] at gains
  exact gains

end

end Inspector.Appearance
