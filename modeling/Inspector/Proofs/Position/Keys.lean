import Inspector.Proofs.Draft.Matching
import Inspector.Proofs.Position.Flags
import Inspector.Proofs.Token.Keys

/-!
# Positions with the same keys in any case

The keys of a position, those of its flags, and those in a group of constraints are all known in
lower case. Tokens that are the same but for the case of keys have the same flags and the same
entries, but for the tokens that messages quote.

    SameToken t t' → the entries of both are the same but for what they quote      (same_ofToken)
    ts.Forall₂ SameToken ts' → the readings of both match, and both are fixed or neither is
                                                                             (reading_of_same_keys)
-/

namespace Inspector.Position

open Text

/-- The value of `constraints` has items with keys of their own. -/
def SameValue (key : Text) : Text → Text → Prop :=
  if key = "constraints" then SameItems else Eq

/-- Tokens of a position that differ in the case of keys alone. -/
abbrev SameToken : Token → Token → Prop := Token.SameButKey Eq SameValue

/-- Equal constraints, or two unknown ones. -/
inductive Constraint.Same : Constraint → Constraint → Prop where
  | same (c : Constraint) : Same c c
  | unknown (t t' : Token) : Same (.unknown t) (.unknown t')

inductive Placement.Same : Placement → Placement → Prop where
  | same (p : Placement) : Same p p
  | constrain {items items' : List Constraint} (h : List.Forall₂ Constraint.Same items items') :
    Same (.constrain items) (.constrain items')

/-- The same entries but for the tokens that they quote. -/
inductive Entry.Same : Entry → Entry → Prop where
  | same (e : Entry) : Same e e
  | placement (t t' : Token) {p p' : Placement} (h : p.Same p') :
    Same (.placement t p) (.placement t' p')

/-! ## Entries -/

theorem same_constraint {t t' : Token} (h : t.SameItem t') :
    (Constraint.ofToken t).Same (Constraint.ofToken t') := by
  cases h with
  | bare => exact .unknown _ _
  | pair hkey hvalue =>
    unfold Constraint.ofToken
    dsimp only
    rw [hkey, hvalue]
    split_ifs
    · exact .same _
    · exact .same _
    · exact .unknown _ _

theorem same_ofPair (t t' : Token) {key value value' : Text} (h : SameValue key value value') :
    (Entry.ofPair t key value).Same (Entry.ofPair t' key value') := by
  unfold SameValue at h
  split at h
  · next hkey =>
    rw [hkey]
    exact .placement t t' (.constrain (List.rel_map @same_constraint h))
  · rw [h]
    have placed (p : Placement) : (Entry.placement t p).Same (.placement t' p) :=
      .placement t t' (.same p)
    unfold Entry.ofPair
    refine rel_ite (.same _) ?_
    refine rel_ite (.same _) ?_
    refine rel_ite (placed _) ?_
    refine rel_ite (placed _) ?_
    refine rel_ite (placed _) ?_
    refine rel_ite (placed _) ?_
    refine rel_ite (placed _) ?_
    refine rel_ite (placed _) ?_
    exact .same _

theorem same_ofToken {t t' : Token} (h : SameToken t t') :
    (Entry.ofToken t).Same (Entry.ofToken t') := by
  cases h with
  | bare htext =>
    rw [htext]
    exact .same _
  | pair hkey hvalue =>
    unfold Entry.ofToken
    dsimp only
    rw [← hkey]
    exact same_ofPair _ _ hvalue

/-! ## Steps -/

namespace State

/-- States that differ in the wording of their messages at most. -/
structure Matches (s s' : State) : Prop where
  draft : s.draft.Matches s'.draft
  detached : s.detached = s'.detached
  flagSeen : s.flagSeen = s'.flagSeen
  rotationSeen : s.rotationSeen = s'.rotationSeen

namespace Matches

variable {s s' : State}

theorem refl (s : State) : s.Matches s := ⟨.refl _, rfl, rfl, rfl⟩

theorem error (h : s.Matches s') (e e' : Error) : (s.error e).Matches (s'.error e') :=
  { h with draft := h.draft.error e e' }

theorem warn (h : s.Matches s') (w w' : Warning) : (s.warn w).Matches (s'.warn w') :=
  { h with draft := h.draft.warn w w' }

theorem readFlag (h : s.Matches s') {t t' : Token} (ht : SameToken t t') :
    (s.readFlag t).Matches (s'.readFlag t') := by
  cases ht with
  | bare htext =>
    rw [htext]
    exact related_ite rfl { h with flagSeen := rfl, detached := rfl } h
  | @pair key key' value value' hkey hvalue =>
    unfold State.readFlag
    dsimp only
    rw [← hkey]
    by_cases flag : isFlagKey (lower key)
    · have other : lower key ≠ "constraints".toList := by
        intro hc
        rw [hc] at flag
        exact absurd flag (by decide)
      rw [SameValue, if_neg other] at hvalue
      rw [hvalue, if_pos flag, if_pos flag]
      split
      · exact { h with flagSeen := rfl, detached := rfl }
      · exact { h with draft := h.draft.error .., flagSeen := rfl }
    · rw [if_neg flag, if_neg flag]
      exact h

theorem setTurn (h : s.Matches s') (turn : Turn) : (s.setTurn turn).Matches (s'.setTurn turn) := by
  cases turn with
  | upright => exact { h with draft := h.draft.erase _ }
  | flipX => exact { h with draft := h.draft.insert .. }
  | flipY => exact { h with draft := h.draft.insert .. }
  | angle degrees =>
    unfold State.setTurn
    dsimp only
    split
    · exact { h with draft := h.draft.put .. }
    · exact { h with draft := h.draft.erase _ }

theorem setRotationItem (h : s.Matches s') (item : Token) :
    (s.setRotationItem item).Matches (s'.setRotationItem item) := by
  cases item with
  | pair key value => exact h.error ..
  | bare text =>
    unfold State.setRotationItem
    dsimp only
    split
    · exact h.setTurn _
    · exact h.error ..

theorem place (h : s.Matches s') (axis : Axis) (classes : List Text) :
    (s.place axis classes).Matches (s'.place axis classes) :=
  { h with draft := h.draft.put .. }

theorem setConstraint (h : s.Matches s') {c c' : Constraint} (hc : c.Same c') :
    (s.setConstraint c).Matches (s'.setConstraint c') := by
  cases hc with
  | unknown t t' => exact h.warn ..
  | same =>
    cases c with
    | unknown t => exact h.warn ..
    | on axis value =>
      unfold State.setConstraint
      dsimp only
      split
      · exact h.place ..
      · exact h.error ..

theorem setPlacement (h : s.Matches s') {p p' : Placement} (hp : p.Same p') :
    (s.setPlacement p).Matches (s'.setPlacement p') := by
  have constrain {items items' : List Constraint} (hi : List.Forall₂ Constraint.Same items items') :
      (s.setPlacement (.constrain items)).Matches (s'.setPlacement (.constrain items')) :=
    List.rel_foldl (P := Matches) (R := Constraint.Same) (fun _ _ hs _ _ hc => hs.setConstraint hc)
      h hi
  cases hp with
  | constrain hi => exact constrain hi
  | same =>
    cases p with
    | constrain items => exact constrain (List.forall₂_same.2 fun c _ => .same c)
    | edge value =>
      unfold State.setPlacement
      dsimp only
      split
      · exact h.place ..
      · exact h.error ..
    | offset axis value =>
      unfold State.setPlacement
      dsimp only
      split
      · exact h.place ..
      · exact h.error ..

theorem setDepth (h : s.Matches s') (value : Text) :
    (s.setDepth value).Matches (s'.setDepth value) := by
  unfold State.setDepth
  split
  · exact { h with draft := h.draft.put .. }
  · exact h.error ..

theorem apply (h : s.Matches s') {e e' : Entry} (he : e.Same e') :
    (s.apply e).Matches (s'.apply e') := by
  have placement (t t' : Token) {p p' : Placement} (hp : p.Same p') :
      (s.apply (.placement t p)).Matches (s'.apply (.placement t' p')) :=
    related_ite h.detached (h.setPlacement hp) (h.error ..)
  cases he with
  | placement t t' hp => exact placement t t' hp
  | same =>
    cases e with
    | flag => exact h
    | placement t p => exact placement t t (.same p)
    | rotation items =>
      have seen : Matches { s with rotationSeen := true } { s' with rotationSeen := true } :=
        { h with rotationSeen := rfl }
      exact List.foldl_rel (r := Matches) seen fun i _ _ _ hs => hs.setRotationItem i
    | depth value => exact h.setDepth value
    | unknownKey key => exact h.warn ..
    | unrecognized text => exact h.warn ..

theorem step (h : s.Matches s') {t t' : Token} (ht : SameToken t t') :
    (s.step t).Matches (s'.step t') :=
  h.apply (same_ofToken ht)

theorem setFrame (h : s.Matches s') : s.setFrame.Matches s'.setFrame := by
  have fixed := h.draft.prepend .frame "fixed"
  have layered := related_ite (fixed.contains_eq .depth) fixed (fixed.insert .depth "z-50")
  have relative : Matches { s with draft := s.draft.prepend .frame "relative" }
      { s' with draft := s'.draft.prepend .frame "relative" } :=
    { h with draft := h.draft.prepend .. }
  exact related_ite h.detached { h with draft := layered }
    (related_ite (h.draft.contains_eq .depth) (relative.warn ..) h)

theorem finish (h : s.Matches s') : s.finish.Matches s'.finish := by
  have flagged := related_ite h.flagSeen h (h.error .missingFlag .missingFlag)
  have turned := related_ite flagged.rotationSeen flagged
    (flagged.error .missingRotation .missingRotation)
  exact turned.setFrame

end Matches

end State

/-! ## Readings -/

theorem run_of_same_keys {ts ts' : List Token} (h : List.Forall₂ SameToken ts ts') :
    (run ts).Matches (run ts') := by
  have flags : (ts.foldl State.readFlag {}).Matches (ts'.foldl State.readFlag {}) :=
    List.rel_foldl (P := State.Matches) (R := SameToken) (fun _ _ hs _ _ ht => hs.readFlag ht)
      (.refl {}) h
  exact List.rel_foldl (P := State.Matches) (R := SameToken) (fun _ _ hs _ _ ht => hs.step ht)
    flags h

theorem reading_of_same_keys {ts ts' : List Token} (h : List.Forall₂ SameToken ts ts') :
    (reading ts).report.Matches (reading ts').report ∧
      (reading ts).isFixed = (reading ts').isFixed := by
  have finished := (run_of_same_keys h).finish
  exact ⟨finished.draft.report .position Error.message Warning.message, finished.detached⟩

end Inspector.Position
