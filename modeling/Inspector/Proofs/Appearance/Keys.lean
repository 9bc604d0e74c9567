import Inspector.Proofs.Appearance.Family
import Inspector.Proofs.Bundle.Keys
import Inspector.Proofs.Draft.Matching

/-!
# Appearances with the same keys in any case

An appearance and the bundles of its radii know their keys in lower case. Tokens that are the same
but for the case of keys have the same entries, unknown corners of a bundle aside, and so the
appearances have the same classes, and as many errors and warnings.

    SameToken t t' → the entries of both are the same but for unknown corners      (same_ofToken)
    ts.Forall₂ SameToken ts' → (reading ts).Matches (reading ts')             (reading_of_same_keys)
-/

namespace Inspector.Appearance

open Text

/-- The value of a radius may be a bundle with keys of its own. -/
def SameValue (key : Text) : Text → Text → Prop :=
  if key = "radius" ∨ key = "corner-radius" ∨ key = "rounded" then SameBundle else Eq

/-- Tokens of an appearance that differ in the case of keys alone. -/
abbrev SameToken : Token → Token → Prop := Token.SameButKey Eq SameValue

/-- Equal entries, or two unknown corners. -/
inductive Entry.Same : Entry → Entry → Prop where
  | same (e : Entry) : Same e e
  | corner (key key' : Text) : Same (.unread (.corner key)) (.unread (.corner key'))

/-! ## Entries -/

theorem Entry.same_list (es : List Entry) : List.Forall₂ Entry.Same es es :=
  List.forall₂_same.2 fun e _ => .same e

theorem same_ofBundle {b b' : Bundle.Entry Corner} (h : b.Same b') :
    (Entry.ofBundle b).Same (Entry.ofBundle b') := by
  cases h with
  | same => exact .same _
  | unknown key key' => exact .corner key key'

theorem same_ofPair {key value value' : Text} (h : SameValue key value value') :
    List.Forall₂ Entry.Same (Entry.ofPair key value) (Entry.ofPair key value') := by
  unfold SameValue at h
  split at h
  · next hkey =>
    cases h with
    | same => exact Entry.same_list _
    | group hv hv' items =>
      have entries := List.rel_map @same_ofBundle (Bundle.same_entries (P := Corner.parts) items)
      rcases hkey with rfl | rfl | rfl
      · simpa [Entry.ofPair, hv, hv'] using entries
      · simpa [Entry.ofPair, hv, hv'] using entries
      · simpa [Entry.ofPair, hv, hv'] using entries
  · rw [h]
    exact Entry.same_list _

theorem same_ofToken {t t' : Token} (h : SameToken t t') :
    List.Forall₂ Entry.Same (Entry.ofToken t) (Entry.ofToken t') := by
  cases h with
  | bare htext =>
    rw [htext]
    exact Entry.same_list _
  | pair hkey hvalue =>
    rw [Entry.ofToken, Entry.ofToken, ← hkey]
    exact same_ofPair hvalue

/-! ## Steps -/

namespace State

/-- States that differ in the wording of their messages at most. -/
structure Matches (s s' : State) : Prop where
  draft : s.draft.Matches s'.draft
  visibilitySeen : s.visibilitySeen = s'.visibilitySeen
  opacitySeen : s.opacitySeen = s'.opacitySeen

namespace Matches

variable {s s' : State}

theorem refl (s : State) : s.Matches s := ⟨.refl _, rfl, rfl⟩

theorem error (h : s.Matches s') (e e' : Error) : (s.error e).Matches (s'.error e') :=
  { h with draft := h.draft.error e e' }

theorem warn (h : s.Matches s') (w w' : Warning) : (s.warn w).Matches (s'.warn w') :=
  { h with draft := h.draft.warn w w' }

theorem setOpacity (h : s.Matches s') (value : Text) :
    (s.setOpacity value).Matches (s'.setOpacity value) := by
  have seen : Matches { s with opacitySeen := true } { s' with opacitySeen := true } :=
    { h with opacitySeen := rfl }
  unfold State.setOpacity
  dsimp only
  split
  · exact { seen with draft := h.draft.put .. }
  · exact seen.error ..

theorem setUniform (h : s.Matches s') (value : Text) :
    (s.setUniform value).Matches (s'.setUniform value) := by
  unfold State.setUniform
  split
  · exact { h with draft := (h.draft.eraseAll _).put .. }
  · exact h.error ..

theorem setCorner (h : s.Matches s') (k : Corner) (value : Text) :
    (s.setCorner k value).Matches (s'.setCorner k value) := by
  unfold State.setCorner
  split
  · exact { h with draft := (h.draft.discard ..).put .. }
  · exact h.error ..

theorem apply (h : s.Matches s') {e e' : Entry} (he : e.Same e') :
    (s.apply e).Matches (s'.apply e') := by
  cases he with
  | corner key key' => exact h.warn ..
  | same =>
    cases e with
    | visible => exact { h with draft := h.draft.erase _, visibilitySeen := rfl }
    | hidden => exact { h with draft := h.draft.insert .., visibilitySeen := rfl }
    | unclear value => exact { h with draft := h.draft.error .., visibilitySeen := rfl }
    | opacity value => exact h.setOpacity value
    | uniform value => exact h.setUniform value
    | corner k value => exact h.setCorner k value
    | unread u => exact h.warn ..

theorem step (h : s.Matches s') {t t' : Token} (ht : SameToken t t') :
    (s.step t).Matches (s'.step t') :=
  List.rel_foldl (P := Matches) (R := Entry.Same) (fun _ _ hs _ _ he => hs.apply he) h
    (same_ofToken ht)

theorem finish (h : s.Matches s') : s.finish.Matches s'.finish := by
  have visible := related_ite h.visibilitySeen h (h.error .missingVisibility .missingVisibility)
  have valued := related_ite visible.opacitySeen visible
    (visible.error .missingOpacity .missingOpacity)
  exact related_ite (valued.draft.contains_eq .opacity) valued
    { valued with draft := valued.draft.insert .. }

end Matches

end State

/-! ## Readings -/

theorem run_of_same_keys {ts ts' : List Token} (h : List.Forall₂ SameToken ts ts') :
    (run ts).Matches (run ts') :=
  List.rel_foldl (P := State.Matches) (R := SameToken) (fun _ _ hs _ _ ht => hs.step ht)
    (.refl {}) h

theorem reading_of_same_keys {ts ts' : List Token} (h : List.Forall₂ SameToken ts ts') :
    (reading ts).Matches (reading ts') := by
  have finished := (run_of_same_keys h).finish
  cases h with
  | nil => exact .refl _
  | cons => exact finished.draft.report .appearance Error.message Warning.message

end Inspector.Appearance
