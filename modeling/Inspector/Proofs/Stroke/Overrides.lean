import Inspector.Proofs.Draft.Overrides
import Inspector.Proofs.Stroke.LastWrite

/-!
# Overrides in a stroke

The color, the opacity and the style of a stroke are never taken back, only overridden. So the
report of a stroke tells of each how often its accepted values change.

    (run ts) follows the accepted values of ts, for every kind                        (follows_run)
    the report tells the changes of the accepted values                    (tellsChanges_reading)
-/

namespace Inspector.Stroke

open Text

/-! ## Accepted values -/

/-- The classes that an entry gives to a kind of value, if it gives a valid one. -/
def Entry.classes? : Kind → Entry → Option (List Text)
  | .color, .color value => (Color.ofText? value "border").map fun c => [c.classFor "border"]
  | .opacity, .opacity value => (Fragment.ofPercent? value).map fun f => ["border-opacity-" ++ f]
  | .style, .style value =>
    if styleWords.contains (lower (trim value)) then some ["border-" ++ lower (trim value)]
    else none
  | _, _ => none

/-- The classes of the accepted values of a kind, one after the other. -/
def accepted (k : Kind) (ts : List Token) : List (List Text) :=
  (entries ts).filterMap (Entry.classes? k)

/-- The state has of this kind what the values leave. -/
abbrev State.Follows (k : Kind) (vs : List (List Text)) (s : State) : Prop :=
  Draft.Follows k.concern (.superseded k.concern) vs s

/-! ## Steps -/

namespace State

theorem follows_apply {k : Kind} {s : State} {vs : List (List Text)} (h : s.Follows k vs)
    (e : Entry) : (s.apply e).Follows k (vs ++ (e.classes? k).toList) := by
  have other (hf : k.concern.family ≠ e.family) (none : e.classes? k = none) :
      (s.apply e).Follows k (vs ++ (e.classes? k).toList) := by
    rw [none, Option.toList_none, List.append_nil]
    exact Draft.Follows.of_part rfl rfl ((acts_apply e).elsewhere hf s) h
  cases e with
  | color value =>
    cases k with
    | color =>
      simp only [apply, setColor, Entry.classes?]
      cases Color.ofText? value "border" with
      | none => simpa using h.error _
      | some c => exact h.put _
    | opacity | style => exact other (by rintro ⟨⟩) rfl
  | opacity value =>
    cases k with
    | opacity =>
      simp only [apply, setOpacity, Entry.classes?]
      cases Fragment.ofPercent? value with
      | none => simpa using h.error _
      | some f => exact h.put _
    | color | style => exact other (by rintro ⟨⟩) rfl
  | style value =>
    cases k with
    | style =>
      simp only [apply, setStyle, Entry.classes?]
      split
      · exact h.put _
      · simpa using h.error _
    | color | opacity => exact other (by rintro ⟨⟩) rfl
  | position | uniform | side => cases k <;> exact other (by rintro ⟨⟩) rfl
  | unread u => cases k <;> exact other (by cases u <;> rintro ⟨⟩) rfl

end State

/-! ## Runs -/

theorem follows_run (k : Kind) (ts : List Token) : (run ts).Follows k (accepted k ts) := by
  have followed := tracked_foldl (R := fun (s : State) vs => s.Follows k vs) (l := entries ts)
    (fun e _ h => State.follows_apply h e) (s := {}) (.start rfl nofun)
  rw [run_eq_foldl, accepted, List.filterMap_eq_flatMap_toList]
  exact followed

/-! ## Reports -/

def Concern.all : List Concern := [.color, .opacity, .style, .weight] ++ Side.order.map .side

theorem Concern.mem_all (k : Concern) : k ∈ all := by
  cases k with
  | side s => cases s <;> decide
  | _ => decide

theorem Concern.title_injective : Function.Injective Concern.title := by
  have each : ∀ j ∈ all, ∀ k ∈ all, j.title = k.title → j = k := by decide
  exact fun j k => each j j.mem_all k k.mem_all

/-- An override has a message of its own. -/
theorem Warning.message_eq_superseded_iff (k : Concern) (w : Warning) :
    w.message = (Warning.superseded k).message ↔ w = .superseded k := by
  refine ⟨fun same => ?_, congrArg message⟩
  have ends : EndsAsOverride w.message := same ▸ endsAsOverride k.title
  cases w with
  | superseded j => rw [Concern.title_injective (List.append_cancel_right same)]
  | uniformReplaced s => exact absurd ends (not_endsAsOverride (by decide))
  | unread u => cases u <;> exact absurd ends (not_endsAsOverride (by decide))

theorem tellsChanges_reading (k : Kind) (ts : List Token) :
    (reading ts).TellsChanges (overrideLine .stroke k.concern.title) (accepted k ts) := by
  cases ts with
  | nil => exact .of_count rfl
  | cons t ts =>
    rw [reading_of_ne_nil (List.cons_ne_nil t ts)]
    exact (follows_run k (t :: ts)).tellsChanges (State.noted_finish _) .stroke Error.message
      (Warning.message_eq_superseded_iff k.concern)

end Inspector.Stroke
