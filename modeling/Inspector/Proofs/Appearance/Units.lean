import Inspector.Proofs.Appearance.Opacity
import Inspector.Proofs.Appearance.Outcome
import Inspector.Proofs.Draft.Units

/-!
# Units in an appearance

Radii are in pixels or percent, of all corners, of one corner, or in a bundle, which is flattened to
its corners; the opacity is in percent. Any of them is refused in another unit, whatever its number
is, but for a radius of zero: its unit is never looked at, so a zero in degrees is a radius too, and
the one quantity whose unit an appearance does not heed. A bare literal is nothing to an appearance.

    radiusFragment? v = none, if v is foreign to lengths and no zero (radiusFragment?_of_isForeign)
    radiusFragment? v = "none", if v is a zero in any unit              (radiusFragment?_of_isZero)
    HeedsUnits q ↔ ¬ (q.unit = some .deg ∧ q.magnitude.isZero)                     (heedsUnits_iff)
-/

namespace Inspector.Appearance

open Text

variable {q : Quantity}

/-! ## Radii -/

/-- A radius whose unit is foreign is refused, unless it is zero. -/
theorem radiusFragment?_of_isForeign {v : Text} (h : Gauge.length.IsForeign q v)
    (heeded : ¬ (q.unit = some .deg ∧ q.magnitude.isZero)) : radiusFragment? v = none := by
  obtain ⟨hq, unit⟩ := h
  have degrees := Gauge.eq_deg_of_not_mem unit
  have zero : q.magnitude.isZero = false :=
    Bool.eq_false_iff.2 fun zero => heeded ⟨degrees, zero⟩
  rw [radiusFragment?, hq, Option.bind_some, zero, degrees]
  exact ite_self none

theorem isNegative_of_isZero {x : Binary64} (h : x.isZero) : x.isNegative = false := by
  cases x with
  | finite s u =>
    have none : u = 0 := eq_of_beq h
    subst none
    exact Bool.and_false s
  | _ => cases h

/-- A zero is a radius in whatever unit. -/
theorem radiusFragment?_of_isZero {v : Text} (hq : Quantity.ofText? v = some q)
    (zero : q.magnitude.isZero) : radiusFragment? v = some "none".toList := by
  rw [radiusFragment?, hq, Option.bind_some, isNegative_of_isZero zero, zero]
  rfl

/-! ## Entries -/

/-- The literal that an entry asks a field to take. -/
def Entry.asked? : Entry → Option (Asked Error)
  | .opacity v => some ⟨.share, v, .invalidOpacity v⟩
  | .uniform v => some ⟨.length, v, .invalidRadius v⟩
  | .corner k v => some ⟨.length, v, .invalidCornerRadius k v⟩
  | .visible | .hidden | .unclear _ | .unread _ => none

/-- The literals that the fields of an appearance are asked to take. -/
def asked (ts : List Token) : List (Asked Error) := (entries ts).filterMap Entry.asked?

namespace State

variable (s : State)

theorem apply_of_isForeign (heeded : ¬ (q.unit = some .deg ∧ q.magnitude.isZero)) {e : Entry}
    {a : Asked Error} (h : e.asked? = some a) (foreign : a.IsForeign q) :
    (s.apply e).draft = s.draft.error a.refusal := by
  cases e with
  | opacity v =>
    cases h
    simp only [apply, setOpacity, Fragment.ofPercent?_of_isForeign foreign, error]
  | uniform v =>
    cases h
    simp only [apply, setUniform, radiusFragment?_of_isForeign foreign heeded, error]
  | corner k v =>
    cases h
    simp only [apply, setCorner, radiusFragment?_of_isForeign foreign heeded, error]
  | visible | hidden | unclear | unread => cases h

/-- A zero in any unit is taken for the radius of all corners, and for that of one. -/
theorem answers_of_isZero {v : Text} (hq : Quantity.ofText? v = some q)
    (zero : q.magnitude.isZero) :
    Draft.Answers .radius (some "rounded-none".toList) s.draft (s.apply (.uniform v)).draft ∧
    ∀ k : Corner, Draft.Answers (.corner k) (some ("rounded-" ++ k.short ++ "-" ++ "none")) s.draft
      (s.apply (.corner k v)).draft := by
  have fragment := radiusFragment?_of_isZero hq zero
  constructor
  · simp only [apply, setUniform, fragment]
    exact Draft.answers_put (s.draft.errors_eraseAll _) _ _
  · intro k
    simp only [apply, setCorner, fragment]
    exact Draft.answers_put (s.draft.errors_discard _ _) _ _

end State

/-- A bare literal is none of the words of an appearance. -/
theorem ofToken_of_quantity {v : Text} (hq : Quantity.ofText? v = some q) :
    Entry.ofToken (.bare v) = [.unread (.token v)] := by
  have other := Quantity.lower_not_mem
    ["visible", "hidden", "invisible", "corner-smoothing", "smoothing"] (by decide) hq
  simp only [List.mem_cons, List.not_mem_nil, or_false, not_or] at other
  obtain ⟨visible, hidden, invisible, corner, smoothing⟩ := other
  simp only [Entry.ofToken, Entry.ofBare, visible, hidden, invisible, corner, smoothing, or_self,
    if_false]

/-! ## Reports -/

theorem refusesForeign_apply (heeded : ¬ (q.unit = some .deg ∧ q.magnitude.isZero)) :
    RefusesForeign State.draft State.apply (fun _ => Entry.asked?) q :=
  fun s _ _ asks foreign => s.apply_of_isForeign heeded asks foreign

theorem refusal_mem_errors (heeded : ¬ (q.unit = some .deg ∧ q.magnitude.isZero))
    {ts : List Token} {a : Asked Error} (ha : a ∈ asked ts) (foreign : a.IsForeign q) :
    a.refusal ∈ (run ts).finish.draft.errors := by
  have kept (s : State) (e : Entry) : s.draft.errors ⊆ (s.apply e).draft.errors := by
    rw [State.errors_apply]
    exact List.subset_append_left _ _
  have found := (refusesForeign_apply heeded).refusal_mem_foldl kept ha foreign {}
  rw [State.errors_finish, run_eq_foldl]
  exact List.mem_append_left _ found

theorem unread_mem_warnings {ts : List Token} {v : Text} (hv : .bare v ∈ ts)
    (foreign : Gauge.nothing.IsForeign q v) :
    .unread (.token v) ∈ (run ts).finish.draft.warnings := by
  have own : .unread (.token v) ∈ Entry.ofToken (.bare v) := by
    rw [ofToken_of_quantity foreign.1]
    exact List.mem_singleton_self _
  have noted : .unread (.token v) ∈ (run ts).finish.draft.noted Warning.isUnknown := by
    rw [State.noted_finish, run_eq_foldl]
    exact mem_log_foldl (fun s : State => s.draft.noted Warning.isUnknown) State.noted_apply
      (List.mem_flatMap_of_mem hv own) (List.mem_singleton_self _) {}
  exact List.mem_of_mem_filter noted

/-- No literal of the quantity is taken in a unit that is foreign to the field. -/
structure HeedsUnits (q : Quantity) : Prop where
  refused : RefusesForeign State.draft State.apply (fun _ => Entry.asked?) q
  passed : PassesForeign State.draft State.step .nothing (fun v => .unread (.token v)) q
  told : ∀ input, TellsForeign .appearance (read input) (asked (tokens input)) Error.message
    .nothing (tokens input) q

theorem heedsUnits (heeded : ¬ (q.unit = some .deg ∧ q.magnitude.isZero)) : HeedsUnits q where
  refused := refusesForeign_apply heeded
  passed s v foreign := by
    rw [State.step, ofToken_of_quantity foreign.1]
    rfl
  told input := by
    unfold read
    split
    · next none =>
      rw [none]
      exact .nil
    · exact Draft.tellsForeign (fun _ => rfl) (fun _ => refusal_mem_errors heeded)
        fun _ => unread_mem_warnings

/-- A literal for a zero in degrees is a radius, though degrees are foreign to radii. -/
theorem heedsUnits_iff {v : Text} (hq : Quantity.ofText? v = some q) :
    HeedsUnits q ↔ ¬ (q.unit = some .deg ∧ q.magnitude.isZero) := by
  constructor
  · rintro h ⟨degrees, zero⟩
    have foreign : Gauge.length.IsForeign q v := ⟨hq, by rw [degrees]; decide⟩
    have refused := h.refused {} (.uniform v) ⟨.length, v, .invalidRadius v⟩ rfl foreign
    have taken := ((State.answers_of_isZero {} hq zero).1.taken _ rfl).1
    rw [refused] at taken
    cases taken
  · exact heedsUnits

end Inspector.Appearance
