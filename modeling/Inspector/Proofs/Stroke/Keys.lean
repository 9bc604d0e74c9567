import Inspector.Proofs.Bundle.Keys
import Inspector.Proofs.Draft.Matching
import Inspector.Proofs.Stroke.Family

/-!
# Strokes with the same keys in any case

A stroke and the bundles of its weights know their keys in lower case. Tokens that are the same but
for the case of keys have the same entries, unknown sides of a bundle aside, and so the strokes have
the same classes, and as many errors and warnings.

    SameToken t t' → the entries of both are the same but for unknown sides        (same_ofToken)
    ts.Forall₂ SameToken ts' → (reading ts).Matches (reading ts')             (reading_of_same_keys)
-/

namespace Inspector.Stroke

open Text

/-- The value of a weight may be a bundle with keys of its own. -/
def SameValue (key : Text) : Text → Text → Prop :=
  if key = "weight" ∨ key = "width" then SameBundle else Eq

/-- Tokens of a stroke that differ in the case of keys alone. -/
abbrev SameToken : Token → Token → Prop := Token.SameButKey Eq SameValue

/-- Equal entries, or two unknown sides. -/
inductive Entry.Same : Entry → Entry → Prop where
  | same (e : Entry) : Same e e
  | side (key key' : Text) : Same (.unread (.side key)) (.unread (.side key'))

/-! ## Entries -/

theorem Entry.same_list (es : List Entry) : List.Forall₂ Entry.Same es es :=
  List.forall₂_same.2 fun e _ => .same e

theorem same_ofBundle {b b' : Bundle.Entry Side} (h : b.Same b') :
    (Entry.ofBundle b).Same (Entry.ofBundle b') := by
  cases h with
  | same => exact .same _
  | unknown key key' => exact .side key key'

theorem same_ofPair {key value value' : Text} (h : SameValue key value value') :
    List.Forall₂ Entry.Same (Entry.ofPair key value) (Entry.ofPair key value') := by
  unfold SameValue at h
  split at h
  · next hkey =>
    cases h with
    | same => exact Entry.same_list _
    | group hv hv' items =>
      have entries := List.rel_map @same_ofBundle (Bundle.same_entries (P := Side.parts) items)
      rcases hkey with rfl | rfl
      · simpa [Entry.ofPair, hv, hv'] using entries
      · simpa [Entry.ofPair, hv, hv'] using entries
  · rw [h]
    exact Entry.same_list _

theorem same_ofToken {t t' : Token} (h : SameToken t t') :
    List.Forall₂ Entry.Same (Entry.ofToken t) (Entry.ofToken t') := by
  cases h with
  | bare htext =>
    rw [htext]
    exact Entry.same_list _
  | pair hkey hvalue =>
    rw [Entry.ofToken, Entry.ofToken, ← hkey]
    exact same_ofPair hvalue

/-! ## Steps -/

namespace State

variable {s s' : State}

theorem matches_setColor (h : Draft.Matches s s') (value : Text) :
    Draft.Matches (s.setColor value) (s'.setColor value) := by
  unfold setColor
  split
  · exact h.put ..
  · exact h.error ..

theorem matches_setOpacity (h : Draft.Matches s s') (value : Text) :
    Draft.Matches (s.setOpacity value) (s'.setOpacity value) := by
  unfold setOpacity
  split
  · exact h.put ..
  · exact h.error ..

theorem matches_checkPosition (h : Draft.Matches s s') (value : Text) :
    Draft.Matches (s.checkPosition value) (s'.checkPosition value) := by
  unfold checkPosition
  split
  · exact h
  · exact h.error ..

theorem matches_setStyle (h : Draft.Matches s s') (value : Text) :
    Draft.Matches (s.setStyle value) (s'.setStyle value) := by
  unfold setStyle
  split
  · exact h.put ..
  · exact h.error ..

theorem matches_setUniform (h : Draft.Matches s s') (value : Text) :
    Draft.Matches (s.setUniform value) (s'.setUniform value) := by
  unfold setUniform
  split
  · exact (h.eraseAll _).put ..
  · exact h.error ..

theorem matches_setSide (h : Draft.Matches s s') (side : Side) (value : Text) :
    Draft.Matches (s.setSide side value) (s'.setSide side value) := by
  unfold setSide
  split
  · exact (h.discard ..).put ..
  · exact h.error ..

theorem matches_apply (h : Draft.Matches s s') {e e' : Entry} (he : e.Same e') :
    Draft.Matches (s.apply e) (s'.apply e') := by
  cases he with
  | side key key' => exact h.warn ..
  | same =>
    cases e with
    | color value => exact matches_setColor h value
    | opacity value => exact matches_setOpacity h value
    | position value => exact matches_checkPosition h value
    | style value => exact matches_setStyle h value
    | uniform value => exact matches_setUniform h value
    | side side value => exact matches_setSide h side value
    | unread u => exact h.warn ..

theorem matches_step (h : Draft.Matches s s') {t t' : Token} (ht : SameToken t t') :
    Draft.Matches (s.step t) (s'.step t') :=
  List.rel_foldl (P := Draft.Matches) (R := Entry.Same) (fun _ _ hs _ _ he => matches_apply hs he)
    h (same_ofToken ht)

theorem isWeighted_eq_of_matches (h : Draft.Matches s s') : s.isWeighted = s'.isWeighted := by
  unfold isWeighted
  simp only [h.contains_eq]

theorem matches_finish (h : Draft.Matches s s') : Draft.Matches s.finish s'.finish := by
  have colored := related_ite (h.contains_eq .color) h (h.error .missingColor .missingColor)
  exact related_ite (isWeighted_eq_of_matches colored) colored (colored.error ..)

end State

/-! ## Readings -/

theorem run_of_same_keys {ts ts' : List Token} (h : List.Forall₂ SameToken ts ts') :
    Draft.Matches (run ts) (run ts') :=
  List.rel_foldl (P := Draft.Matches) (R := SameToken)
    (fun _ _ hs _ _ ht => State.matches_step hs ht) (.refl {}) h

theorem reading_of_same_keys {ts ts' : List Token} (h : List.Forall₂ SameToken ts ts') :
    (reading ts).Matches (reading ts') := by
  have finished := State.matches_finish (run_of_same_keys h)
  cases h with
  | nil => exact .refl _
  | cons => exact finished.report .stroke Error.message Warning.message

end Inspector.Stroke
