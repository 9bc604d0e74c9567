import Inspector.Proofs.Appearance.Family
import Inspector.Proofs.Appearance.Run
import Inspector.Proofs.Draft.Lines

/-!
# Problems of an appearance, on one line each

The errors and warnings of an appearance quote keys, values and tokens as they are written. An
appearance on one line has none that breaks.

    t.IsLine → e ∈ Entry.ofToken t → e.IsLine                                   (isLine_ofToken)
    IsLine s → (read (some s)).InLines                                            (inLines_read)
-/

namespace Inspector.Appearance

open Text

namespace Entry

/-- What the entry may have quoted stands on one line. -/
def IsLine : Entry → Prop
  | .visible | .hidden => True
  | .unclear value | .opacity value | .uniform value | .corner _ value => Text.IsLine value
  | .unread u => Text.IsLine (Warning.unread u).message

theorem isLine_ofVisibility {value : Text} (h : Text.IsLine value) :
    (ofVisibility value).IsLine := by
  unfold ofVisibility
  split
  · exact True.intro
  · exact True.intro
  · exact h

theorem isLine_ofBundle {b : Bundle.Entry Corner} (h : b.IsLine) : (ofBundle b).IsLine := by
  cases b with
  | value corner value => exact h
  | unknown key => exact isLine_quoted (by decide) h (by decide)
  | surplus text => exact isLine_quoted (by decide) h (by decide)

theorem isLine_ofPair {key value : Text} (hk : Text.IsLine key) (hv : Text.IsLine value) :
    ∀ e ∈ ofPair key value, e.IsLine := by
  have single {e : Entry} (he : e.IsLine) : ∀ e' ∈ [e], e'.IsLine := List.forall_mem_singleton.2 he
  have smoothing : Text.IsLine (Warning.unread .smoothing).message := by decide
  unfold ofPair
  split_ifs
  · exact single (isLine_ofVisibility hv)
  · exact single hv
  · split
    · next inner hs =>
      have items := Bundle.isLine_entries (P := Corner.parts)
        (fun _ h => Group.isLine_unwrapped h) (Group.isLine_strip? hv hs)
      exact List.forall_mem_map.2 fun b hb => isLine_ofBundle (items b hb)
    · exact single hv
  · exact single smoothing
  · split
    · exact single hv
    · exact single (isLine_quoted (by decide) hk (by decide))

theorem isLine_ofBare {text : Text} (h : Text.IsLine text) : (ofBare text).IsLine := by
  have smoothing : Text.IsLine (Warning.unread .smoothing).message := by decide
  unfold ofBare
  dsimp only
  split_ifs
  · exact True.intro
  · exact True.intro
  · exact smoothing
  · exact isLine_quoted (by decide) h (by decide)

theorem isLine_ofToken {t : Token} (h : t.IsLine) : ∀ e ∈ ofToken t, e.IsLine := by
  cases t with
  | bare text => exact List.forall_mem_singleton.2 (isLine_ofBare h)
  | pair key value => exact isLine_ofPair (isLine_lower h.1) h.2

end Entry

/-- All errors and warnings of the appearance stand on one line each. -/
abbrev InLines (s : State) : Prop := s.draft.InLines Error.message Warning.message

namespace State

variable {s : State}

theorem inLines_apply (h : InLines s) {e : Entry} (he : e.IsLine) : InLines (s.apply e) := by
  cases e with
  | visible => exact h.classes _
  | hidden => exact h.classes _
  | unclear value => exact h.error (isLine_quoted (by decide) he (by decide))
  | opacity value =>
    simp only [apply, setOpacity]
    split
    · exact h.put _ _ (by decide)
    · exact h.error (isLine_quoted (by decide) he (by decide))
  | uniform value =>
    simp only [apply, setUniform]
    split
    · exact Draft.InLines.put (h.classes _) _ _ (by decide)
    · exact h.error (isLine_quoted (by decide) he (by decide))
  | corner k value =>
    have title : IsLine (Warning.superseded (.corner k)).message := by cases k <;> decide
    have replaced : IsLine (Warning.uniformReplaced k).message := by cases k <;> decide
    have before : IsLine ("invalid " ++ k.short ++ " corner radius '") := by cases k <;> decide
    simp only [apply, setCorner]
    split
    · exact (h.discard _ replaced).put _ _ title
    · exact h.error (isLine_quoted before he (by decide))
  | unread u => exact h.warn he

theorem inLines_finish (h : InLines s) : InLines s.finish := by
  have shown := h.ite s.visibilitySeen (h.error (e := .missingVisibility) (by decide))
  have checked := shown.ite s.opacitySeen (shown.error (e := .missingOpacity) (by decide))
  unfold InLines
  rw [draft_finish]
  exact checked.ite _ (checked.classes _)

end State

theorem inLines_run {ts : List Token} (h : ∀ t ∈ ts, t.IsLine) : InLines (run ts) := by
  rw [run_eq_foldl]
  have lines : ∀ e ∈ entries ts, e.IsLine := by
    intro e he
    obtain ⟨t, ht, het⟩ := List.mem_flatMap.1 he
    exact Entry.isLine_ofToken (h t ht) e het
  exact List.foldlRecOn (motive := InLines) (entries ts) State.apply .empty fun _ hs e he =>
    State.inLines_apply hs (lines e he)

/-- An appearance on one line has problems on one line each. -/
theorem inLines_read {input : Option Text} (h : ∀ s ∈ input, IsLine s) :
    (read input).InLines := by
  have left : InLines (({} : State).warn .defaulted) := Draft.InLines.empty.warn (by decide)
  unfold read
  split
  · exact left.report .appearance
  · exact (State.inLines_finish (inLines_run (isLine_tokens h))).report .appearance

end Inspector.Appearance
