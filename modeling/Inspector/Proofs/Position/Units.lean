import Inspector.Proofs.Draft.Units
import Inspector.Proofs.Position.Gate
import Inspector.Proofs.Position.Numbers
import Inspector.Proofs.Position.Overrides

/-!
# Units in a position

Offsets are in pixels or percent, and rotations in degrees, alone or in groups, which are flattened
to their items; an angle may have `r-` before it. Any of them is refused in another unit, whatever
its number is, and where the element is not detached the gate refuses every offset before its unit
is looked at. A bare literal in another unit than degrees is no rotation.

    Quantity.ofText? v = some q → Quantity.ofText? (angleLiteral v) = some q (ofText?_angleLiteral)
    Turn.ofText? text = none, if its literal is foreign to angles       (Turn.ofText?_of_isForeign)
    HeedsUnits q                                                                       (heedsUnits)
-/

namespace Inspector.Position

open Text

variable {q : Quantity}

/-! ## Angles -/

/-- The words of a rotation. -/
def turnWords : List Text :=
  ["none", "flip-h", "flip-x", "mirror-h", "horizontal", "flip-v", "flip-y", "mirror-v", "vertical"]

/-- A literal is the literal of the angle that it is read as. -/
theorem ofText?_angleLiteral {v : Text} (hq : Quantity.ofText? v = some q) :
    Quantity.ofText? (angleLiteral v) = some q := by
  have lowered := Quantity.ofText?_lower (Quantity.ofText?_trim hq)
  rw [angleLiteral, Quantity.after?_of_isStray lowered (by decide), Option.getD_none, lowered]

/-- With `r-` before it, it is so too. -/
theorem ofText?_angleLiteral_lead {v : Text} (hq : Quantity.ofText? v = some q) :
    Quantity.ofText? (angleLiteral ("r-" ++ v)) = some q := by
  have trimmed : trim ("r-" ++ v) = "r-" ++ trimRight v :=
    (trim_cons (by decide) ('-' :: v)).trans
      (congrArg ('r' :: ·) (trimRight_append_cons (by decide) [] v))
  have literal : angleLiteral ("r-" ++ v) = lower (trimRight v) := by
    rw [angleLiteral, trimmed]
    rfl
  rw [literal]
  refine Quantity.ofText?_lower ?_
  rwa [Quantity.ofText?, trim_trimRight]

theorem Turn.ofText?_of_isForeign {text : Text} (h : Gauge.angle.IsForeign q (angleLiteral text)) :
    Turn.ofText? text = none := by
  obtain ⟨hq, unit⟩ := h
  have word {w : Text} (hw : w ∈ turnWords) : lower (trim text) ≠ w := by
    have none : ∀ w ∈ turnWords, Quantity.ofText? ((after? "r-" w).getD w) = none := by decide
    rintro rfl
    have other := none _ hw
    rw [← angleLiteral, hq] at other
    cases other
  have other : ¬ (q.unit = none ∨ q.unit = some .deg) := by simpa [Gauge.units] using unit
  rw [angleLiteral] at hq
  simp only [ofText?, word (w := "none") (by decide), word (w := "flip-h") (by decide),
    word (w := "flip-x") (by decide), word (w := "mirror-h") (by decide),
    word (w := "horizontal") (by decide), word (w := "flip-v") (by decide),
    word (w := "flip-y") (by decide), word (w := "mirror-v") (by decide),
    word (w := "vertical") (by decide), or_self, if_false, hq, Option.bind_some,
    other]

/-! ## Entries -/

/-- The literal that an item of a rotation is. -/
def askedTurn? : Token → Option (Asked Error)
  | .bare text => some ⟨.angle, angleLiteral text, .invalidRotation (.bare text)⟩
  | .pair _ _ => none

namespace Entry

/-- The literal that an entry asks an axis to take; the gate has an error of its own. -/
def asked? (detached : Bool) : Entry → Option (Asked Error)
  | .placement token (.offset axis v) =>
    some ⟨.length, v, if detached then .invalidOffset axis v else .notDetached token⟩
  | .placement _ (.edge _) | .placement _ (.constrain _) | .rotation _ | .flag | .depth _
  | .unknownKey _ | .unrecognized _ => none

/-- The items of a rotation. -/
def turns : Entry → List Token
  | .rotation items => items
  | _ => []

def asked (detached : Bool) (e : Entry) : List (Asked Error) :=
  (e.asked? detached).toList ++ e.turns.filterMap askedTurn?

end Entry

/-- The literals that the fields of a position are asked to take. -/
def asked (ts : List Token) : List (Asked Error) :=
  ts.flatMap fun t => (Entry.ofToken t).asked (flagged ts).detached

theorem refusesForeign_apply :
    RefusesForeign State.draft State.apply (fun s => Entry.asked? s.detached) q := by
  intro s e a h foreign
  cases e with
  | placement token p =>
    cases p with
    | offset axis v =>
      cases h
      have none := Fragment.ofLength?_of_isForeign foreign
      simp only [State.apply, State.setPlacement, none]
      cases s.detached <;> rfl
    | edge | constrain => cases h
  | flag | rotation | depth | unknownKey | unrecognized => cases h

theorem refusesForeign_setRotationItem :
    RefusesForeign State.draft State.setRotationItem (fun _ => askedTurn?) q := by
  intro s i a h foreign
  cases i with
  | bare text =>
    cases h
    simp only [State.setRotationItem, Turn.ofText?_of_isForeign foreign, State.error]
  | pair => cases h

/-- A bare literal that is no angle is no flag and no edge either. -/
theorem ofToken_of_isForeign {v : Text} (h : Gauge.angle.IsForeign q v) :
    Entry.ofToken (.bare v) = .unrecognized v := by
  obtain ⟨hq, unit⟩ := h
  have other := Quantity.lower_not_mem otherWords (by decide) hq
  have none : Turn.ofText? v = none := Turn.ofText?_of_isForeign ⟨ofText?_angleLiteral hq, unit⟩
  rw [Entry.ofToken, Entry.ofBare, if_neg (mt mem_otherWords_of_isFlagKey other),
    if_neg (mt mem_otherWords_of_isEdge other), none]
  rfl

/-! ## Reports -/

theorem refusal_mem_entryErrors {e : Entry} {detached : Bool} {a : Asked Error}
    (ha : a ∈ e.asked detached) (foreign : a.IsForeign q) : a.refusal ∈ e.errors detached := by
  rcases List.mem_append.1 ha with placed | turned
  · have found := refusesForeign_apply.refusal_mem (s := { detached := detached })
      (Option.mem_toList.1 placed) foreign
    rwa [State.errors_apply] at found
  · obtain ⟨i, hi, asks⟩ := List.mem_filterMap.1 turned
    have found := refusesForeign_setRotationItem.refusal_mem (s := {}) asks foreign
    rw [State.errors_setRotationItem] at found
    cases e with
    | rotation items => exact List.mem_flatMap_of_mem hi found
    | _ => cases hi

theorem refusal_mem_errors {ts : List Token} {a : Asked Error} (ha : a ∈ asked ts)
    (foreign : a.IsForeign q) : a.refusal ∈ (run ts).finish.draft.errors := by
  obtain ⟨t, ht, asks⟩ := List.mem_flatMap.1 ha
  rw [State.errors_finish, errors_run]
  exact List.mem_append_left _ (List.mem_append_right _
    (List.mem_flatMap_of_mem ht (refusal_mem_entryErrors asks foreign)))

theorem unread_mem_warnings {ts : List Token} {v : Text} (hv : .bare v ∈ ts)
    (foreign : Gauge.angle.IsForeign q v) : .unrecognized v ∈ (run ts).finish.draft.warnings := by
  have own : .unrecognized v ∈ (Entry.ofToken (.bare v)).unknowns := by
    rw [ofToken_of_isForeign foreign]
    exact List.mem_singleton_self _
  have noted : .unrecognized v ∈ (run ts).finish.draft.noted Warning.isUnknown := by
    rw [State.noted_finish _ rfl]
    exact mem_log_foldl (fun s : State => s.draft.noted Warning.isUnknown)
      (fun s t => s.noted_apply (Entry.ofToken t)) hv own (flagged ts)
  exact List.mem_of_mem_filter noted

/-- No literal of the quantity is taken in a unit that is foreign to the field. -/
structure HeedsUnits (q : Quantity) : Prop where
  refused : RefusesForeign State.draft State.apply (fun s => Entry.asked? s.detached) q
  turned : RefusesForeign State.draft State.setRotationItem (fun _ => askedTurn?) q
  passed : PassesForeign State.draft State.step .angle .unrecognized q
  literal : ∀ v, Quantity.ofText? v = some q → Quantity.ofText? (angleLiteral v) = some q ∧
    Quantity.ofText? (angleLiteral ("r-" ++ v)) = some q
  told : ∀ input, TellsForeign .position (read input).report (asked (tokens input)) Error.message
    .angle (tokens input) q

theorem heedsUnits (q : Quantity) : HeedsUnits q where
  refused := refusesForeign_apply
  turned := refusesForeign_setRotationItem
  passed s v foreign := by
    rw [State.step, ofToken_of_isForeign foreign]
    rfl
  literal _ hq := ⟨ofText?_angleLiteral hq, ofText?_angleLiteral_lead hq⟩
  told _ := Draft.tellsForeign (fun _ => rfl) (fun _ => refusal_mem_errors)
    fun _ => unread_mem_warnings

end Inspector.Position
