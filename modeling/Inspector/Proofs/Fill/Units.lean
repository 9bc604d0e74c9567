import Inspector.Proofs.Draft.Units
import Inspector.Proofs.Fill.Bare
import Inspector.Proofs.Fill.Outcome

/-!
# Units in a fill

The opacity is the one number of a fill, and it is in percent: it is refused in another unit,
whatever its number is. A bare literal is neither a color nor a reference to an image.

    Quantity.ofText? v = some q → Entry.ofToken (.bare v) = .unrecognized v   (ofToken_of_quantity)
    HeedsUnits q                                                                       (heedsUnits)
-/

namespace Inspector.Fill

open Text

variable {q : Quantity}

/-- The literal that an entry asks a field to take. -/
def Entry.asked? : Entry → Option (Asked Error)
  | .opacity v => some ⟨.share, v, .invalidOpacity v⟩
  | .kind _ | .color _ | .image _ | .unknownKey _ | .unrecognized _ => none

/-- The literals that the fields of a fill are asked to take. -/
def asked (ts : List Token) : List (Asked Error) :=
  (ts.map Entry.ofToken).filterMap Entry.asked?

theorem refusesForeign_apply :
    RefusesForeign State.draft State.apply (fun _ => Entry.asked?) q := by
  intro s e a h foreign
  cases e with
  | opacity v =>
    cases h
    simp only [State.apply, State.setOpacity, Fragment.ofPercent?_of_isForeign foreign, State.error]
  | kind | color | image | unknownKey | unrecognized => cases h

/-! ## Bare literals -/

theorem not_isBare_of_quantity {v : Text} (hq : Quantity.ofText? v = some q) :
    Image.isBare v = false := by
  have clean := Quantity.any_isStray hq
  rw [Bool.eq_false_iff]
  intro bare
  rcases isBare_cases bare with ⟨rest, rfl⟩ | ⟨c, rest, rfl, -, colon⟩
  · cases clean
  · exact absurd rfl (List.any_eq_false.1 clean ':' (List.mem_cons_of_mem c colon))

theorem ofToken_of_quantity {v : Text} (hq : Quantity.ofText? v = some q) :
    Entry.ofToken (.bare v) = .unrecognized v := by
  have unsplit : v.dropWhile (· != '=') = [] := by
    rw [List.dropWhile_eq_nil_iff]
    rintro c hc
    refine bne_iff_ne.2 ?_
    rintro rfl
    exact absurd rfl (List.any_eq_false.1 (Quantity.any_isStray hq) '=' hc)
  rw [Entry.ofToken, Entry.ofBare, Quantity.color?_of_quantity hq (by decide),
    Quantity.afterWord?_of_isStray hq (by decide),
    not_isBare_of_quantity (Quantity.ofText?_trim hq), Entry.imagePair?, unsplit]
  rfl

/-! ## Reports -/

theorem State.Change.errors_subset {s s' : State} {e : Entry} (h : s.Change e s') :
    s.draft.errors ⊆ s'.draft.errors := by
  cases h with
  | refused => exact List.subset_append_left _ _
  | _ => exact List.Subset.refl _

theorem State.noted_finish (s : State) {p : Warning → Bool}
    (inferred : ∀ k, p (.inferred k) = false) : s.finish.draft.noted p = s.draft.noted p := by
  have kind : s.checkKind.draft.noted p = s.draft.noted p := by
    unfold checkKind
    split
    · rfl
    · split
      · rfl
      · exact Draft.noted_warn_of_neg _ (inferred _)
  have value (s : State) : s.checkValue.draft.noted p = s.draft.noted p := by
    unfold checkValue
    split
    · split <;> rfl
    · split <;> rfl
    · rfl
  have opacity (s : State) : s.checkOpacity.draft.noted p = s.draft.noted p := by
    unfold checkOpacity
    dsimp only
    split_ifs <;> rfl
  rw [finish, opacity, value, kind]

theorem refusal_mem_errors {ts : List Token} {a : Asked Error} (ha : a ∈ asked ts)
    (foreign : a.IsForeign q) : a.refusal ∈ (run ts).finish.draft.errors := by
  have kept (s : State) (e : Entry) : s.draft.errors ⊆ (s.apply e).draft.errors :=
    (s.change_apply e).errors_subset
  have found := refusesForeign_apply.refusal_mem_foldl kept ha foreign {}
  rw [List.foldl_map] at found
  exact (run ts).mem_errors_finish_iff.2 (.inl found)

theorem unread_mem_warnings {ts : List Token} {v : Text} (hv : .bare v ∈ ts)
    (foreign : Gauge.nothing.IsForeign q v) : .unrecognized v ∈ (run ts).finish.draft.warnings := by
  have own : .unrecognized v ∈ (Entry.ofToken (.bare v)).unknowns := by
    rw [ofToken_of_quantity foreign.1]
    exact List.mem_singleton_self _
  have noted : .unrecognized v ∈ (run ts).finish.draft.noted Warning.isUnknown := by
    rw [State.noted_finish _ fun _ => rfl]
    exact mem_log_foldl (fun s : State => s.draft.noted Warning.isUnknown)
      (fun s t => s.noted_apply (Entry.ofToken t)) hv own {}
  exact List.mem_of_mem_filter noted

/-- No literal of the quantity is taken in a unit that is foreign to the field. -/
structure HeedsUnits (q : Quantity) : Prop where
  refused : RefusesForeign State.draft State.apply (fun _ => Entry.asked?) q
  passed : PassesForeign State.draft State.step .nothing .unrecognized q
  told : ∀ input, TellsForeign .fill (read input) (asked (tokens input)) Error.message .nothing
    (tokens input) q

theorem heedsUnits (q : Quantity) : HeedsUnits q where
  refused := refusesForeign_apply
  passed s v foreign := by
    rw [State.step, ofToken_of_quantity foreign.1]
    rfl
  told input := by
    unfold read
    split
    · next none =>
      rw [none]
      exact .nil
    · exact Draft.tellsForeign (fun _ => rfl) (fun _ => refusal_mem_errors)
        fun _ => unread_mem_warnings

end Inspector.Fill
