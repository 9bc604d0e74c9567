import Inspector.Proofs.Outcome
import Inspector.Proofs.Stroke.Run

/-!
# What one token does to a stroke

Every entry updates the classes in a way that is fixed beforehand. A token that is no group has one
entry, which is refused, or not read, or taken; and a token that is not known has that one warning.

    (s.step t).classes = s.classes.after (updates t)                              (classes_step)
    Group.strip? t.text = none → Outcome view Warning.isUnread (·.step t) s       (outcome_step)
-/

namespace Inspector.Stroke

open Text

/-- A stroke is nothing but its draft. -/
def view : View State Concern Error Warning Unit where
  draft := id
  meaning := fun _ => ()

/-- The warnings about what could not be read. -/
def Warning.isUnread : Warning → Bool
  | .unread _ => true
  | _ => false

/-- A token is not known, or its key. -/
def Unread.isUnknown : Unread → Bool
  | .key _ | .token _ => true
  | _ => false

def Warning.isUnknown : Warning → Bool
  | .unread u => u.isUnknown
  | _ => false

namespace Entry

/-- What an entry changes in the classes. -/
def updates : Entry → List (ClassMap.Update Concern)
  | .color value =>
    (Color.ofText? value "border").elim [] fun c => [.set .color [c.classFor "border"]]
  | .opacity value =>
    (Fragment.ofPercent? value).elim [] fun f => [.set .opacity ["border-opacity-" ++ f]]
  | .style value =>
    if styleWords.contains (lower (trim value)) then
      [.set .style ["border-" ++ lower (trim value)]]
    else []
  | .uniform value =>
    (weightClass? "border" value).elim [] fun c =>
      (Side.order.map .side).map .erase ++ [.set .weight [c]]
  | .side k value =>
    (weightClass? ("border-" ++ k.short) value).elim [] fun c =>
      [.erase .weight, .set (.side k) [c]]
  | .position _ | .unread _ => []

/-- The warning about an entry that is not known. -/
def unknowns : Entry → List Warning
  | .unread u => [Warning.unread u].filter Warning.isUnknown
  | _ => []

/-- A token that is no group has one entry. -/
theorem length_ofToken {t : Token} (plain : Group.strip? t.text = none) :
    (ofToken t).length = 1 := by
  cases t with
  | bare text =>
    simp only [ofToken]
    split_ifs <;> rfl
  | pair key value =>
    have plain : Group.strip? value = none := plain
    simp only [ofToken, ofPair, plain]
    split_ifs
    all_goals first | rfl | (split <;> rfl)

theorem unknowns_ofBundle (b : Bundle.Entry Side) : (ofBundle b).unknowns = [] := by
  cases b <;> rfl

/-- An entry that is not known is the only one of its token. -/
theorem ofToken_of_unknowns {t : Token} {e : Entry} (he : e ∈ ofToken t) (h : e.unknowns ≠ []) :
    ofToken t = [e] := by
  have single {e' : Entry} (he' : e ∈ [e']) : [e'] = [e] := by rw [List.mem_singleton.1 he']
  cases t with
  | bare text =>
    simp only [ofToken] at he ⊢
    split_ifs at he ⊢ <;> exact single he
  | pair key value =>
    simp only [ofToken, ofPair] at he ⊢
    split_ifs at he ⊢
    · exact single he
    · exact single he
    · exact single he
    · split at he
      · obtain ⟨b, -, rfl⟩ := List.mem_map.1 he
        exact absurd (unknowns_ofBundle b) h
      · exact single he
    · exact single he
    · split at he <;> exact single he

end Entry

namespace State

variable (s : State)

theorem classes_apply (e : Entry) : (s.apply e).classes = s.classes.after e.updates := by
  cases e with
  | color value =>
    simp only [apply, setColor, Entry.updates]
    cases Color.ofText? value "border" with
    | none => rfl
    | some c => exact Draft.classes_put _ _ _ _
  | opacity value =>
    simp only [apply, setOpacity, Entry.updates]
    cases Fragment.ofPercent? value with
    | none => rfl
    | some f => exact Draft.classes_put _ _ _ _
  | position value =>
    simp only [apply, checkPosition]
    split <;> rfl
  | style value =>
    simp only [apply, setStyle, Entry.updates]
    split
    · exact Draft.classes_put _ _ _ _
    · rfl
  | uniform value =>
    simp only [apply, setUniform, Entry.updates]
    cases weightClass? "border" value with
    | none => rfl
    | some c =>
      rw [Option.elim_some, ClassMap.after_concat, ClassMap.after_erases]
      exact Draft.classes_put _ _ _ _
  | side side value =>
    simp only [apply, setSide, Entry.updates]
    cases weightClass? ("border-" ++ side.short) value with
    | none => rfl
    | some c =>
      rw [Draft.classes_put, Draft.classes_discard]
      rfl
  | unread u => rfl

theorem classes_step (t : Token) :
    (s.step t).classes = s.classes.after ((Entry.ofToken t).flatMap Entry.updates) :=
  ClassMap.after_foldl (fun s : State => s.classes) classes_apply (Entry.ofToken t) s

theorem noted_apply (e : Entry) :
    (s.apply e).noted Warning.isUnknown = s.noted Warning.isUnknown ++ e.unknowns := by
  cases e with
  | color value =>
    simp only [apply, setColor, Entry.unknowns, List.append_nil]
    split
    · exact Draft.noted_put _ _ _ rfl
    · rfl
  | opacity value =>
    simp only [apply, setOpacity, Entry.unknowns, List.append_nil]
    split
    · exact Draft.noted_put _ _ _ rfl
    · rfl
  | position value =>
    simp only [apply, checkPosition, Entry.unknowns, List.append_nil]
    split <;> rfl
  | style value =>
    simp only [apply, setStyle, Entry.unknowns, List.append_nil]
    split
    · exact Draft.noted_put _ _ _ rfl
    · rfl
  | uniform value =>
    simp only [apply, setUniform, Entry.unknowns, List.append_nil]
    split
    · exact Draft.noted_put _ _ _ rfl
    · rfl
  | side side value =>
    simp only [apply, setSide, Entry.unknowns, List.append_nil]
    split
    · rw [Draft.noted_put _ _ _ rfl, Draft.noted_discard _ _ rfl]
    · rfl
  | unread u => exact Draft.noted_warn _ _

/-- An entry that is not known has that one warning. -/
theorem apply_of_unknowns {e : Entry} (h : e.unknowns ≠ []) :
    ∃ w, Warning.isUnknown w ∧ s.apply e = Draft.warn s w := by
  cases e with
  | unread u =>
    refine ⟨.unread u, ?_, rfl⟩
    by_contra hw
    exact h (by simp [Entry.unknowns, hw])
  | _ => exact absurd rfl h

/-- A token that is not known has that one warning and changes nothing else. -/
theorem notedAlone_step (t : Token) :
    view.NotedAlone Warning.isUnknown Draft.warn s (s.step t) :=
  View.notedAlone_foldl noted_apply (fun _ he hu => Entry.ofToken_of_unknowns he hu)
    fun _ hu => apply_of_unknowns s hu

theorem outcome_apply (e : Entry) : Outcome view Warning.isUnread (·.apply e) s := by
  cases e with
  | color value =>
    cases h : Color.ofText? value "border" with
    | none => exact .refused (.invalidColor value) (by simp only [view, apply, setColor, h, id]) rfl
    | some c =>
      refine .settled ?_ ?_ <;>
        simp only [view, id, apply, setColor, h, Draft.errors_put, Draft.put_put]
  | opacity value =>
    cases h : Fragment.ofPercent? value with
    | none =>
      exact .refused (.invalidOpacity value) (by simp only [view, apply, setOpacity, h, id]) rfl
    | some f =>
      refine .settled ?_ ?_ <;>
        simp only [view, id, apply, setOpacity, h, Draft.errors_put, Draft.put_put]
  | position value =>
    by_cases h : centerWords.contains (lower (trim value))
    · exact .unchanged (if_pos h)
    · exact .refused (.unsupportedPosition value) (if_neg h) rfl
  | style value =>
    by_cases h : styleWords.contains (lower (trim value))
    · refine .settled ?_ ?_ <;>
        simp only [view, id, apply, setStyle, if_pos h, Draft.errors_put, Draft.put_put]
    · exact .refused (.invalidStyle value) (if_neg h) rfl
  | uniform value =>
    cases h : weightClass? "border" value with
    | none =>
      exact .refused (.invalidWeight value) (by simp only [view, apply, setUniform, h, id]) rfl
    | some c =>
      refine .settled ?_ ?_
      · simp only [view, id, apply, setUniform, h, Draft.errors_put, Draft.errors_eraseAll]
      · simp only [apply, setUniform, h]
        exact Draft.eraseAll_put_again s (by decide) _ _
  | side side value =>
    cases h : weightClass? ("border-" ++ side.short) value with
    | none =>
      exact .refused (.invalidSideWeight side value)
        (by simp only [view, apply, setSide, h, id]) rfl
    | some c =>
      refine .settled ?_ ?_
      · simp only [view, id, apply, setSide, h, Draft.errors_put, Draft.errors_discard]
      · simp only [apply, setSide, h]
        exact Draft.discard_put_again s (by simp) _ _ _
  | unread u => exact .unread (.unread u) rfl rfl

theorem outcome_step {t : Token} (plain : Group.strip? t.text = none) :
    Outcome view Warning.isUnread (·.step t) s :=
  .foldl (Nat.le_of_eq (Entry.length_ofToken plain)) fun e _ => outcome_apply s e

end State

end Inspector.Stroke
