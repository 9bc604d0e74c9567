import Inspector.Proofs.Draft.Lines
import Inspector.Proofs.Fill.Vocabulary

/-!
# Problems of a fill, on one line each

The errors and warnings of a fill quote keys, values and tokens as they are written, and references
as the classes spell them. A fill on one line has none that breaks.

    t.IsLine → (Entry.ofToken t).IsLine                                         (isLine_ofToken)
    IsLine s → (read (some s)).InLines                                            (inLines_read)
-/

namespace Inspector.Fill

open Text

namespace Entry

/-- What the entry may have quoted stands on one line. -/
def IsLine : Entry → Prop
  | .kind value | .color value | .image value | .opacity value => Text.IsLine value
  | .unknownKey key => Text.IsLine key
  | .unrecognized text => Text.IsLine text

theorem isLine_imagePair? {text reference : Text} (h : Text.IsLine text)
    (hp : imagePair? text = some reference) : Text.IsLine reference := by
  unfold imagePair? at hp
  split at hp
  · next c rest hrest =>
    split_ifs at hp
    obtain rfl := Option.some.inj hp
    have tail : rest ⊆ text.dropWhile (· != '=') := hrest ▸ List.subset_cons_self c rest
    exact h.subset (List.Subset.trans tail (List.dropWhile_subset _))
  · cases hp

theorem isLine_ofBare {text : Text} (h : Text.IsLine text) : (ofBare text).IsLine := by
  unfold ofBare
  split_ifs
  · exact h
  · exact h
  · split
    · next hp => exact isLine_imagePair? h hp
    · exact h

theorem isLine_ofPair {key value : Text} (hk : Text.IsLine key) (hv : Text.IsLine value) :
    (ofPair key value).IsLine := by
  unfold ofPair
  split_ifs
  · exact hv
  · exact hv
  · exact hv
  · exact hv
  · exact hk

theorem isLine_ofToken {t : Token} (h : t.IsLine) : (ofToken t).IsLine := by
  cases t with
  | bare text => exact isLine_ofBare h
  | pair key value => exact isLine_ofPair (isLine_lower h.1) h.2

end Entry

/-- All errors and warnings of the fill stand on one line each. -/
abbrev InLines (s : State) : Prop := s.draft.InLines Error.message Warning.message

namespace State

variable {s : State}

theorem inLines_discardFor (h : InLines s) (kind : Kind) : InLines (s.discardFor kind) := by
  cases kind with
  | image => exact h.discard _ (by decide)
  | solid =>
    simp only [discardFor]
    split
    · exact Draft.InLines.warn (h.classes _) (by decide)
    · exact h

theorem inLines_setKind (h : InLines s) {value : Text} (hv : IsLine value) :
    InLines (s.setKind value) := by
  unfold setKind
  split
  · exact h.error (isLine_quoted (by decide) hv (by decide))
  · next kind _ =>
    have changed : IsLine (Warning.kindChanged kind).message := by cases kind <;> decide
    have discarded := inLines_discardFor h kind
    dsimp only
    split
    · exact discarded.warn changed
    · exact discarded

theorem inLines_setColor (h : InLines s) {value : Text} (hv : IsLine value) :
    InLines (s.setColor value) := by
  unfold setColor
  split
  · exact h.error (isLine_quoted (by decide) hv (by decide))
  · split
    · exact h.error (isLine_quoted (by decide) hv (by decide))
    · exact h.put _ _ (by decide)

theorem inLines_setOpacity (h : InLines s) {value : Text} (hv : IsLine value) :
    InLines (s.setOpacity value) := by
  unfold setOpacity
  dsimp only
  split
  · exact h.put _ _ (by decide)
  · exact h.error (isLine_quoted (by decide) hv (by decide))

theorem inLines_turnIntoImage (h : InLines s) : InLines s.turnIntoImage := by
  unfold turnIntoImage
  split
  · exact h
  · exact Draft.InLines.warn (h.classes _) (by decide)
  · exact h

theorem inLines_seed (h : InLines s) : InLines s.seed := by
  unfold seed
  split
  · exact h
  · exact h.classes _

theorem inLines_setImage (h : InLines s) {value : Text} (hv : IsLine value) :
    InLines (s.setImage value) := by
  unfold setImage
  split
  · exact h.error (isLine_quoted (by decide) hv (by decide))
  · next reference hr =>
    split
    · exact h.error (isLine_quoted (by decide) (Image.solid_ofText? hr).isLine (by decide))
    · exact inLines_seed ((inLines_turnIntoImage h).put _ _ (by decide))

theorem inLines_apply (h : InLines s) {e : Entry} (he : e.IsLine) : InLines (s.apply e) := by
  cases e with
  | kind value => exact inLines_setKind h he
  | color value => exact inLines_setColor h he
  | opacity value => exact inLines_setOpacity h he
  | image value => exact inLines_setImage h he
  | unknownKey key => exact h.warn (isLine_quoted (by decide) he (by decide))
  | unrecognized text => exact h.warn (isLine_quoted (by decide) he (by decide))

theorem inLines_checkKind (h : InLines s) : InLines s.checkKind := by
  unfold checkKind
  split
  · exact h.error (by decide)
  · next kind given _ =>
    have inferred : IsLine (Warning.inferred kind).message := by cases kind <;> decide
    split
    · exact h
    · exact h.warn inferred

theorem inLines_checkValue (h : InLines s) : InLines s.checkValue := by
  unfold checkValue
  split
  · split
    · exact h
    · exact h.error (by decide)
  · split
    · exact h
    · exact h.error (by decide)
  · exact h

theorem inLines_checkOpacity (h : InLines s) : InLines s.checkOpacity := by
  have missing : InLines (s.error .missingOpacity) := h.error (by decide)
  unfold checkOpacity
  dsimp only
  split
  · split
    · exact h
    · exact h.classes _
  · split
    · exact missing
    · exact missing.classes _

theorem inLines_finish (h : InLines s) : InLines s.finish :=
  inLines_checkOpacity (inLines_checkValue (inLines_checkKind h))

end State

theorem inLines_run {ts : List Token} (h : ∀ t ∈ ts, t.IsLine) : InLines (run ts) :=
  List.foldlRecOn (motive := InLines) ts State.step .empty fun _ hs t ht =>
    State.inLines_apply hs (Entry.isLine_ofToken (h t ht))

/-- A fill on one line has problems on one line each. -/
theorem inLines_read {input : Option Text} (h : ∀ s ∈ input, IsLine s) :
    (read input).InLines := by
  unfold read
  split
  · exact Report.inLines_empty
  · exact (State.inLines_finish (inLines_run (isLine_tokens h))).report .fill

end Inspector.Fill
