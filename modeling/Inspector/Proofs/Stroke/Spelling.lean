import Inspector.Proofs.Bundle.Spelling
import Inspector.Proofs.Draft.Gain
import Inspector.Proofs.Stroke.Family
import Inspector.Proofs.Stroke.Run

/-!
# The spellings of a stroke's sides

Every spelling of the weight of one side is read as the same entry, so a stroke reads the same with
any of them, whatever stands around it. A bundle of weights in order is the bundle of the sides by
name, with one more warning for each weight behind the fourth.

    k.IsSpelled v text → k.IsSpelled v text' →
      read (some (amid before after text)) = read (some (amid before after text'))    (read_spelled)
    (read of the sides by name).Gains lines (read of the weights in order)           (gains_bundle)
-/

namespace Inspector.Stroke

open Text Inspector.Group

theorem Side.clear : Side.parts.Clear where
  complete k := by cases k <;> decide
  plain k := by cases k <;> decide
  named k := by cases k <;> decide
  apart k j := by cases k <;> cases j <;> decide
  unwrapped _ := rfl

def Side.leads : List Text := ["weight-", "width-"]

def weightKeys : List Text := ["weight", "width"]

abbrev Side.IsSpelled : Side → Text → Text → Prop := Side.parts.IsSpelled Side.leads weightKeys

namespace Entry

/-- No key of a stroke's own begins like the key of a side. -/
theorem ofPair_of_sideOfKey? {key : Text} {k : Side} (h : sideOfKey? key = some k) (v : Text) :
    ofPair key v = [.side k v] := by
  have other {own : Text} (none : sideOfKey? own = none) : key ≠ own := by
    rintro rfl
    rw [h] at none
    cases none
  unfold ofPair
  rw [if_neg (other (by decide)), if_neg (other (by decide)),
    if_neg (not_or.2 ⟨other (by decide), other (by decide)⟩),
    if_neg (not_or.2 ⟨other (by decide), other (by decide)⟩), if_neg (other (by decide)), h]

theorem ofToken_of_weights {key value inner : Text} (hkey : key ∈ weightKeys)
    (h : strip? value = some inner) :
    ofToken (.pair key value) = (Bundle.entries Side.parts inner).map ofBundle := by
  have lowered : ∀ key ∈ weightKeys, lower key = key := by decide
  have own : key = "weight" ∨ key = "width" := by simpa [weightKeys] using hkey
  rw [ofToken, lowered key hkey]
  rcases own with rfl | rfl
  · simp [ofPair, h]
  · simp [ofPair, h]

/-- Every spelling of the weight of a side is one token, which asks for that weight and no more. -/
theorem ofToken_of_isSpelled {k : Side} {v text : Text} (plain : IsPlain v)
    (h : k.IsSpelled v text) : ∃ t, IsToken text t ∧ ofToken t = [.side k v] := by
  have keyed : ∀ lead ∈ Side.leads, ∀ a ∈ Side.parts.aliases k,
      IsPlain (lead ++ a) ∧ sideOfKey? (lower (lead ++ a)) = some k := by cases k <;> decide
  have plainKeys : ∀ key ∈ weightKeys, IsPlain key := by decide
  rcases h.token Side.clear (fun lead hl a ha => (keyed lead hl a ha).1) plainKeys plain with
    ⟨lead, hlead, a, ha, ht⟩ | ⟨key, hkey, value, inner, ht, hs, he⟩
  · exact ⟨_, ht, ofPair_of_sideOfKey? (keyed lead hlead a ha).2 v⟩
  · refine ⟨_, ht, ?_⟩
    rw [ofToken_of_weights hkey hs, he]
    rfl

end Entry

/-! ## Warnings in front -/

namespace State

variable (s : State) (ws : List Warning)

theorem preceded_apply (e : Entry) : apply (s.preceded ws) e = (s.apply e).preceded ws := by
  cases e with
  | color value =>
    simp only [apply, setColor]
    cases Color.ofText? value "border" <;> simp
  | opacity value =>
    simp only [apply, setOpacity]
    cases Fragment.ofPercent? value <;> simp
  | position value =>
    simp only [apply, checkPosition]
    split
    · rfl
    · exact Draft.preceded_error s ws _
  | style value =>
    simp only [apply, setStyle]
    split
    · exact Draft.preceded_put s ws _ _ _
    · exact Draft.preceded_error s ws _
  | uniform value =>
    simp only [apply, setUniform]
    cases weightClass? "border" value <;> simp
  | side k value =>
    simp only [apply, setSide]
    cases weightClass? ("border-" ++ k.short) value <;> simp
  | unread u => exact Draft.preceded_warn s ws _

theorem preceded_step (t : Token) : step (s.preceded ws) t = (s.step t).preceded ws :=
  List.foldl_hom (Draft.preceded ws) fun s e => preceded_apply s ws e

theorem preceded_finish : finish (s.preceded ws) = (s.finish).preceded ws := by
  have color : Draft.contains (s.preceded ws) .color = s.contains .color := rfl
  have weighted (s : State) : isWeighted (s.preceded ws) = s.isWeighted := rfl
  unfold finish
  rw [color]
  cases s.contains .color <;> cases hw : s.isWeighted <;> simp [weighted, hw]

/-- A token with further advice leaves the same, with further warnings at the end. -/
theorem step_of_append {t t' : Token} {us : List Unread}
    (h : Entry.ofToken t' = Entry.ofToken t ++ us.map .unread) :
    s.step t' = (us.map Warning.unread).foldl Draft.warn (s.step t) := by
  rw [step, h, List.foldl_append, List.foldl_map, List.foldl_map]
  rfl

end State

/-! ## Readings -/

theorem reading_append_cons (ts us : List Token) (t : Token) :
    reading (ts ++ t :: us) = (us.foldl State.step ((run ts).step t)).finish.report .stroke
      Error.message Warning.message := by
  rw [reading_of_ne_nil (by simp), run, List.foldl_append]
  rfl

/-- Further advice in a token adds its warnings to a stroke and changes nothing else. -/
theorem gains_of_append {t t' : Token} {advice : List Unread}
    (h : Entry.ofToken t' = Entry.ofToken t ++ advice.map .unread) (ts us : List Token) :
    (reading (ts ++ t :: us)).Gains
      (advice.map fun u => Property.name .stroke ++ ": " ++ Warning.message (.unread u))
      (reading (ts ++ t' :: us)) := by
  rw [reading_append_cons, reading_append_cons, State.step_of_append _ h, Draft.foldl_warn]
  generalize (run ts).step t = s
  have front (ws : List Warning) :
      State.finish (us.foldl State.step (s.unwarned.preceded ws)) =
        (us.foldl State.step s.unwarned).finish.preceded ws := by
    rw [List.foldl_hom (Draft.preceded ws) fun s t => State.preceded_step s ws t,
      State.preceded_finish]
  have gains := Draft.gains_report (us.foldl State.step s.unwarned).finish .stroke Error.message
    Warning.message s.warnings (advice.map .unread)
  rwa [← front, ← front, s.preceded_unwarned, List.map_map] at gains

section

variable {before : List Text} (closed : ∀ p ∈ before, depthAfter 0 p = 0) (after : List Text)

include closed

theorem read_amid {text : Text} {t : Token} (h : IsToken text t) :
    read (some (amid before after text)) =
      reading (before.flatMap tokenize ++ t :: tokenize (joined "," after)) := by
  rw [read_eq, tokens, Option.elim_some, tokenize_amid closed h]

/-- All spellings of the weight of a side are read alike. -/
theorem read_spelled {k : Side} {v text text' : Text} (plain : IsPlain v) (h : k.IsSpelled v text)
    (h' : k.IsSpelled v text') :
    read (some (amid before after text)) = read (some (amid before after text')) := by
  obtain ⟨t, ht, he⟩ := Entry.ofToken_of_isSpelled plain h
  obtain ⟨t', ht', he'⟩ := Entry.ofToken_of_isSpelled plain h'
  rw [read_amid closed after ht, read_amid closed after ht', reading_append_cons,
    reading_append_cons, State.step, he, State.step, he']

/-- Weights in order read like those of the sides by name, but for the warnings about the weights
behind the fourth. -/
theorem gains_bundle {o c : Char} (hoc : closerOf? o = some c) {key : Text}
    (hkey : key ∈ weightKeys) {vs : List Text} (plain : ∀ v ∈ vs, IsPlain v)
    (written : ∀ v ∈ vs, v ≠ []) (free : ∀ v ∈ vs, Side.parts.ofItem? v = none) :
    (read (some (amid before after (grouped o c key (Side.parts.assigned Side.short vs))))).Gains
      ((vs.drop 4).map fun v =>
        "stroke: stroke weight takes at most four values; '" ++ v ++ "' was ignored")
      (read (some (amid before after (grouped o c key (joined "," vs))))) := by
  have plainKey : IsPlain key := (by decide : ∀ key ∈ weightKeys, IsPlain key) key hkey
  have named (k : Side) : k.short ∈ Side.parts.aliases k := by cases k <;> decide
  obtain ⟨value, ht, hs⟩ := IsToken.exists_grouped hoc plainKey
    (Bundle.isBalanced_assigned Side.clear named plain)
  obtain ⟨value', ht', hs'⟩ := IsToken.exists_grouped hoc plainKey
    (tokenize_joined (Bundle.isToken_values plain written)).2
  have entries : Entry.ofToken (.pair key value') =
      Entry.ofToken (.pair key value) ++ ((vs.drop 4).map Unread.surplus).map .unread := by
    rw [Entry.ofToken_of_weights hkey hs, Entry.ofToken_of_weights hkey hs',
      Bundle.entries_joined Side.clear named plain written free, List.map_append, List.map_map,
      List.map_map]
    rfl
  have gains := gains_of_append entries (before.flatMap tokenize) (tokenize (joined "," after))
  rw [List.map_map, ← read_amid closed after ht, ← read_amid closed after ht'] at gains
  exact gains

end

end Inspector.Stroke
