import Inspector.Proofs.Appearance.Run
import Inspector.Proofs.Outcome

/-!
# What one token does to an appearance

Every entry updates the classes in a way that is fixed beforehand. A token that is no group has one
entry, which is refused, or not read, or taken; and a token that is not known has that one warning.

    (s.step t).draft.classes = s.draft.classes.after (updates t)                  (classes_step)
    Group.strip? t.text = none → Outcome view Warning.isUnread (·.step t) s       (outcome_step)
-/

namespace Inspector.Appearance

open Text

/-- An appearance says nothing beside its classes. -/
def view : View State Concern Error Warning Unit where
  draft := State.draft
  meaning := fun _ => ()

/-- The warnings about what could not be read. -/
def Warning.isUnread : Warning → Bool
  | .unread _ => true
  | _ => false

/-- A token is not known, or its key. -/
def Unread.isUnknown : Unread → Bool
  | .key _ | .token _ => true
  | _ => false

def Warning.isUnknown : Warning → Bool
  | .unread u => u.isUnknown
  | _ => false

namespace Entry

/-- What an entry changes in the classes. -/
def updates : Entry → List (ClassMap.Update Concern)
  | .visible => [.erase .visibility]
  | .hidden => [.insert .visibility "invisible"]
  | .opacity value =>
    (Fragment.ofPercent? value).elim [] fun f => [.set .opacity ["opacity-" ++ f]]
  | .uniform value =>
    (radiusFragment? value).elim [] fun f =>
      (Corner.order.map .corner).map .erase ++ [.set .radius ["rounded-" ++ f]]
  | .corner k value =>
    (radiusFragment? value).elim [] fun f =>
      [.erase .radius, .set (.corner k) ["rounded-" ++ k.short ++ "-" ++ f]]
  | .unclear _ | .unread _ => []

/-- The warning about an entry that is not known. -/
def unknowns : Entry → List Warning
  | .unread u => [Warning.unread u].filter Warning.isUnknown
  | _ => []

/-- A token that is no group has one entry. -/
theorem length_ofToken {t : Token} (plain : Group.strip? t.text = none) :
    (ofToken t).length = 1 := by
  cases t with
  | bare text => rfl
  | pair key value =>
    have plain : Group.strip? value = none := plain
    simp only [ofToken, ofPair, plain]
    split_ifs
    all_goals first | rfl | (split <;> rfl)

theorem unknowns_ofBundle (b : Bundle.Entry Corner) : (ofBundle b).unknowns = [] := by
  cases b <;> rfl

/-- An entry that is not known is the only one of its token. -/
theorem ofToken_of_unknowns {t : Token} {e : Entry} (he : e ∈ ofToken t) (h : e.unknowns ≠ []) :
    ofToken t = [e] := by
  have single {e' : Entry} (he' : e ∈ [e']) : [e'] = [e] := by rw [List.mem_singleton.1 he']
  cases t with
  | bare text => exact single he
  | pair key value =>
    simp only [ofToken, ofPair] at he ⊢
    split_ifs at he ⊢
    · exact single he
    · exact single he
    · split at he
      · obtain ⟨b, -, rfl⟩ := List.mem_map.1 he
        exact absurd (unknowns_ofBundle b) h
      · exact single he
    · exact single he
    · split at he <;> exact single he

end Entry

namespace State

variable (s : State)

theorem classes_apply (e : Entry) :
    (s.apply e).draft.classes = s.draft.classes.after e.updates := by
  cases e with
  | opacity value =>
    cases h : Fragment.ofPercent? value with
    | none => simp [apply, setOpacity, Entry.updates, h, error, ClassMap.after]
    | some f => simp [apply, setOpacity, Entry.updates, h, ClassMap.after, ClassMap.update]
  | uniform value =>
    cases h : radiusFragment? value with
    | none => simp [apply, setUniform, Entry.updates, h, error, ClassMap.after]
    | some f =>
      simp only [apply, setUniform, Entry.updates, h, Option.elim_some, ClassMap.after_concat,
        ClassMap.after_erases, Draft.classes_put, Draft.classes_eraseAll]
      rfl
  | corner k value =>
    cases h : radiusFragment? value with
    | none => simp [apply, setCorner, Entry.updates, h, error, ClassMap.after]
    | some f => simp [apply, setCorner, Entry.updates, h, ClassMap.after, ClassMap.update]
  | _ => rfl

theorem classes_step (t : Token) :
    (s.step t).draft.classes = s.draft.classes.after ((Entry.ofToken t).flatMap Entry.updates) :=
  ClassMap.after_foldl (fun s : State => s.draft.classes) classes_apply (Entry.ofToken t) s

theorem noted_apply (e : Entry) : (s.apply e).draft.noted Warning.isUnknown =
    s.draft.noted Warning.isUnknown ++ e.unknowns := by
  cases e with
  | opacity value =>
    cases h : Fragment.ofPercent? value with
    | none => simp [apply, setOpacity, error, Entry.unknowns, h]
    | some f =>
      simp only [apply, setOpacity, h, Entry.unknowns, List.append_nil]
      exact Draft.noted_put _ _ _ rfl
  | uniform value =>
    cases h : radiusFragment? value with
    | none => simp [apply, setUniform, error, Entry.unknowns, h]
    | some f =>
      simp only [apply, setUniform, h, Entry.unknowns, List.append_nil]
      exact Draft.noted_put _ _ _ rfl
  | corner k value =>
    cases h : radiusFragment? value with
    | none => simp [apply, setCorner, error, Entry.unknowns, h]
    | some f =>
      simp only [apply, setCorner, h, Entry.unknowns, List.append_nil]
      rw [Draft.noted_put _ _ _ rfl, Draft.noted_discard _ _ rfl]
  | unread u => exact Draft.noted_warn _ _
  | _ => simp [apply, reveal, hide, error, Entry.unknowns]

/-- An entry that is not known has that one warning. -/
theorem apply_of_unknowns {e : Entry} (h : e.unknowns ≠ []) :
    ∃ w, Warning.isUnknown w ∧ s.apply e = s.warn w := by
  cases e with
  | unread u =>
    refine ⟨.unread u, ?_, rfl⟩
    by_contra hw
    exact h (by simp [Entry.unknowns, hw])
  | _ => exact absurd rfl h

/-- A token that is not known has that one warning and changes nothing else. -/
theorem notedAlone_step (t : Token) :
    view.NotedAlone Warning.isUnknown warn s (s.step t) :=
  View.notedAlone_foldl noted_apply (fun _ he hu => Entry.ofToken_of_unknowns he hu)
    fun _ hu => s.apply_of_unknowns hu

theorem outcome_apply (e : Entry) : Outcome view Warning.isUnread (·.apply e) s := by
  cases e with
  | visible =>
    refine .settled rfl ?_
    simp [apply, reveal, Draft.erase_erase]
  | hidden =>
    refine .settled rfl ?_
    simp [apply, hide, Draft.insert_insert]
  | unclear value => exact .refused (.invalidVisibility value) rfl rfl
  | opacity value =>
    cases h : Fragment.ofPercent? value with
    | none =>
      exact .refused (.invalidOpacity value) (by simp [view, apply, setOpacity, h, error]) rfl
    | some f =>
      refine .settled (by simp [view, apply, setOpacity, h]) ?_
      simp [apply, setOpacity, h, Draft.put_put]
  | uniform value =>
    cases h : radiusFragment? value with
    | none =>
      exact .refused (.invalidRadius value) (by simp [view, apply, setUniform, h, error]) rfl
    | some f =>
      refine .settled (by simp [view, apply, setUniform, h]) ?_
      simp [apply, setUniform, h, Draft.eraseAll_put_again]
  | corner k value =>
    cases h : radiusFragment? value with
    | none =>
      exact .refused (.invalidCornerRadius k value) (by simp [view, apply, setCorner, h, error]) rfl
    | some f =>
      refine .settled (by simp [view, apply, setCorner, h]) ?_
      simp [apply, setCorner, h, Draft.discard_put_again]
  | unread u => exact .unread (.unread u) rfl rfl

theorem outcome_step {t : Token} (plain : Group.strip? t.text = none) :
    Outcome view Warning.isUnread (·.step t) s :=
  .foldl (Nat.le_of_eq (Entry.length_ofToken plain)) fun e _ => s.outcome_apply e

end State

end Inspector.Appearance
