import Inspector.Proofs.Draft.Units
import Inspector.Proofs.Stroke.Outcome
import Inspector.Proofs.Stroke.Weights

/-!
# Units in a stroke

Weights are in pixels, of the whole stroke, of one side, or in a bundle, which is flattened to its
sides; the opacity is in percent. Any of them is refused in another unit, whatever its number is,
and a bare literal in another unit than pixels is no weight.

    weightClass? lead v = none, if v is foreign to extents              (weightClass?_of_isForeign)
    HeedsUnits q                                                                       (heedsUnits)
-/

namespace Inspector.Stroke

open Text

variable {q : Quantity}

theorem weightClass?_of_isForeign {v : Text} (h : Gauge.extent.IsForeign q v) (lead : Text) :
    weightClass? lead v = none := by
  rw [weightClass?, Fragment.pixels?_of_isForeign h]
  rfl

/-- The literal that an entry asks a field to take. -/
def Entry.asked? : Entry → Option (Asked Error)
  | .opacity v => some ⟨.share, v, .invalidOpacity v⟩
  | .uniform v => some ⟨.extent, v, .invalidWeight v⟩
  | .side k v => some ⟨.extent, v, .invalidSideWeight k v⟩
  | .color _ | .position _ | .style _ | .unread _ => none

/-- The literals that the fields of a stroke are asked to take. -/
def asked (ts : List Token) : List (Asked Error) := (entries ts).filterMap Entry.asked?

theorem State.apply_of_isForeign (s : State) {e : Entry} {a : Asked Error}
    (h : e.asked? = some a) (foreign : a.IsForeign q) : s.apply e = Draft.error s a.refusal := by
  cases e with
  | opacity v =>
    cases h
    simp only [apply, setOpacity, Fragment.ofPercent?_of_isForeign foreign]
  | uniform v =>
    cases h
    simp only [apply, setUniform, weightClass?_of_isForeign foreign]
  | side k v =>
    cases h
    simp only [apply, setSide, weightClass?_of_isForeign foreign]
  | color | position | style | unread => cases h

/-- A bare literal that is no weight is not a color either. -/
theorem ofToken_of_isForeign {v : Text} (h : Gauge.extent.IsForeign q v) :
    Entry.ofToken (.bare v) = [.unread (.token v)] := by
  rw [Entry.ofToken, Fragment.pixels?_of_isForeign h, Quantity.color?_of_quantity h.1 (by decide)]
  rfl

/-! ## Reports -/

theorem refusesForeign_apply : RefusesForeign id State.apply (fun _ => Entry.asked?) q :=
  fun s _ _ asks foreign => State.apply_of_isForeign s asks foreign

theorem refusal_mem_errors {ts : List Token} {a : Asked Error} (ha : a ∈ asked ts)
    (foreign : a.IsForeign q) : a.refusal ∈ (run ts).finish.errors := by
  have kept (s : State) (e : Entry) : s.errors ⊆ (s.apply e).errors := by
    rw [State.errors_apply]
    exact List.subset_append_left _ _
  have found := refusesForeign_apply.refusal_mem_foldl kept ha foreign {}
  rw [State.errors_finish, run_eq_foldl]
  exact List.mem_append_left _ (List.mem_append_left _ found)

theorem unread_mem_warnings {ts : List Token} {v : Text} (hv : .bare v ∈ ts)
    (foreign : Gauge.extent.IsForeign q v) : .unread (.token v) ∈ (run ts).finish.warnings := by
  have own : .unread (.token v) ∈ Entry.ofToken (.bare v) := by
    rw [ofToken_of_isForeign foreign]
    exact List.mem_singleton_self _
  have noted : .unread (.token v) ∈ (run ts).finish.noted Warning.isUnknown := by
    rw [State.noted_finish, run_eq_foldl]
    exact mem_log_foldl (Draft.noted _) State.noted_apply (List.mem_flatMap_of_mem hv own)
      (List.mem_singleton_self _) {}
  exact List.mem_of_mem_filter noted

/-- No literal of the quantity is taken in a unit that is foreign to the field. -/
structure HeedsUnits (q : Quantity) : Prop where
  refused : RefusesForeign id State.apply (fun _ => Entry.asked?) q
  passed : PassesForeign id State.step .extent (fun v => .unread (.token v)) q
  told : ∀ input, TellsForeign .stroke (read input) (asked (tokens input)) Error.message .extent
    (tokens input) q

theorem heedsUnits (q : Quantity) : HeedsUnits q where
  refused := refusesForeign_apply
  passed s v foreign := by
    rw [State.step, ofToken_of_isForeign foreign]
    rfl
  told input := by
    unfold read
    split
    · next none =>
      rw [none]
      exact .nil
    · exact Draft.tellsForeign (fun _ => rfl) (fun _ => refusal_mem_errors)
        fun _ => unread_mem_warnings

end Inspector.Stroke
