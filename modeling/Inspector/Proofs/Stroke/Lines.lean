import Inspector.Proofs.Draft.Lines
import Inspector.Proofs.Stroke.Run

/-!
# Problems of a stroke, on one line each

The errors and warnings of a stroke quote keys, values and tokens as they are written. A stroke on
one line has none that breaks.

    t.IsLine → e ∈ Entry.ofToken t → e.IsLine                                   (isLine_ofToken)
    IsLine s → (read (some s)).InLines                                            (inLines_read)
-/

namespace Inspector.Stroke

open Text

namespace Entry

/-- What the entry may have quoted stands on one line. -/
def IsLine : Entry → Prop
  | .color value | .opacity value | .position value | .style value | .uniform value
  | .side _ value => Text.IsLine value
  | .unread u => Text.IsLine (Warning.unread u).message

theorem isLine_ofBundle {b : Bundle.Entry Side} (h : b.IsLine) : (ofBundle b).IsLine := by
  cases b with
  | value side value => exact h
  | unknown key => exact isLine_quoted (by decide) h (by decide)
  | surplus text => exact isLine_quoted (by decide) h (by decide)

theorem isLine_ofPair {key value : Text} (hk : Text.IsLine key) (hv : Text.IsLine value) :
    ∀ e ∈ ofPair key value, e.IsLine := by
  have single {e : Entry} (he : e.IsLine) : ∀ e' ∈ [e], e'.IsLine := List.forall_mem_singleton.2 he
  unfold ofPair
  split_ifs
  · exact single hv
  · exact single hv
  · exact single hv
  · split
    · next inner hs =>
      have items := Bundle.isLine_entries (P := Side.parts) (fun _ h => h)
        (Group.isLine_strip? hv hs)
      exact List.forall_mem_map.2 fun b hb => isLine_ofBundle (items b hb)
    · exact single hv
  · exact single hv
  · split
    · exact single hv
    · exact single (isLine_quoted (by decide) hk (by decide))

theorem isLine_ofToken {t : Token} (h : t.IsLine) : ∀ e ∈ ofToken t, e.IsLine := by
  cases t with
  | bare text =>
    unfold ofToken
    dsimp only
    split_ifs
    · exact List.forall_mem_singleton.2 h
    · exact List.forall_mem_singleton.2 h
    · exact List.forall_mem_singleton.2 (isLine_quoted (by decide) h (by decide))
  | pair key value => exact isLine_ofPair (isLine_lower h.1) h.2

end Entry

/-- All errors and warnings of the stroke stand on one line each. -/
abbrev InLines (s : State) : Prop := s.InLines Error.message Warning.message

namespace State

variable {s : State}

theorem inLines_apply (h : InLines s) {e : Entry} (he : e.IsLine) : InLines (s.apply e) := by
  cases e with
  | color value =>
    simp only [apply, setColor]
    split
    · exact h.put _ _ (by decide)
    · exact h.error (isLine_quoted (by decide) he (by decide))
  | opacity value =>
    simp only [apply, setOpacity]
    split
    · exact h.put _ _ (by decide)
    · exact h.error (isLine_quoted (by decide) he (by decide))
  | position value =>
    simp only [apply, checkPosition]
    split
    · exact h
    · exact h.error (isLine_quoted (by decide) he (by decide))
  | style value =>
    simp only [apply, setStyle]
    split
    · exact h.put _ _ (by decide)
    · exact h.error (isLine_quoted (by decide) he (by decide))
  | uniform value =>
    simp only [apply, setUniform]
    split
    · exact Draft.InLines.put (h.classes _) _ _ (by decide)
    · exact h.error (isLine_quoted (by decide) he (by decide))
  | side side value =>
    have title : IsLine (Warning.superseded (.side side)).message := by cases side <;> decide
    have replaced : IsLine (Warning.uniformReplaced side).message := by cases side <;> decide
    have before : IsLine ("invalid " ++ side.short ++ " stroke weight '") := by
      cases side <;> decide
    simp only [apply, setSide]
    split
    · exact (h.discard _ replaced).put _ _ title
    · exact h.error (isLine_quoted before he (by decide))
  | unread u => exact h.warn he

theorem inLines_finish (h : InLines s) : InLines s.finish := by
  unfold finish
  dsimp only
  split
  · split
    · exact h
    · exact h.error (by decide)
  · split
    · exact h.error (by decide)
    · exact (h.error (by decide)).error (by decide)

end State

theorem inLines_run {ts : List Token} (h : ∀ t ∈ ts, t.IsLine) : InLines (run ts) := by
  rw [run_eq_foldl]
  have lines : ∀ e ∈ entries ts, e.IsLine := by
    intro e he
    obtain ⟨t, ht, het⟩ := List.mem_flatMap.1 he
    exact Entry.isLine_ofToken (h t ht) e het
  exact List.foldlRecOn (entries ts) State.apply .empty fun _ hs e he =>
    State.inLines_apply hs (lines e he)

/-- A stroke on one line has problems on one line each. -/
theorem inLines_read {input : Option Text} (h : ∀ s ∈ input, IsLine s) :
    (read input).InLines := by
  unfold read
  split
  · exact Report.inLines_empty
  · exact (State.inLines_finish (inLines_run (isLine_tokens h))).report .stroke

end Inspector.Stroke
