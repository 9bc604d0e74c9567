import Inspector.Proofs.Appearance.Opacity
import Inspector.Proofs.Draft.Overrides

/-!
# Overrides in an appearance

The opacity of an appearance is never taken back, only overridden; the radii take the place of each
other, and what hides an element can be taken back. So it is the opacity alone of which the report
tells how often the accepted values change. The default opacity of the end is no value.

    the draft of run ts follows the accepted opacities of ts                          (follows_run)
    the report tells the changes of the accepted opacities                 (tellsChanges_reading)
-/

namespace Inspector.Appearance

open Text

/-! ## Accepted values -/

/-- The classes of the valid opacities, one after the other. -/
def accepted (ts : List Token) : List (List Text) :=
  ((ts.filterMap Token.opacity?).filterMap Fragment.ofPercent?).map fun f => ["opacity-" ++ f]

/-- The classes of the opacity that an entry gives, if it gives a valid one. -/
def Entry.opacityClasses? (e : Entry) : Option (List Text) :=
  (e.opacity?.bind Fragment.ofPercent?).map fun f => ["opacity-" ++ f]

theorem accepted_eq (ts : List Token) :
    accepted ts = (entries ts).filterMap Entry.opacityClasses? := by
  rw [accepted, ← opacities_entries, List.filterMap_filterMap, List.map_filterMap]
  rfl

/-! ## Steps -/

namespace State

/-- The state has of the opacity what the values leave. -/
abbrev Follows (vs : List (List Text)) (s : State) : Prop :=
  Draft.Follows .opacity (.superseded .opacity) vs s.draft

theorem follows_apply {s : State} {vs : List (List Text)} (h : s.Follows vs) (e : Entry) :
    (s.apply e).Follows (vs ++ e.opacityClasses?.toList) := by
  by_cases own : e.family = .opacity
  · cases e with
    | opacity value =>
      simp only [apply, setOpacity, Entry.opacityClasses?, Entry.opacity?, Option.bind_some]
      cases Fragment.ofPercent? value with
      | none => simpa [error] using h.error _
      | some f => exact h.put _
    | unread u => cases u <;> cases own
    | _ => cases own
  · have none : e.opacityClasses? = none := by
      rw [Entry.opacityClasses?, Entry.opacity?_eq_none own]
      rfl
    rw [none, Option.toList_none, List.append_nil]
    exact .of_part rfl rfl (congrArg State.draft ((acts_apply e).elsewhere (Ne.symm own) s)) h

end State

/-! ## Runs -/

theorem follows_run (ts : List Token) : (run ts).Follows (accepted ts) := by
  have followed := tracked_foldl (R := fun (s : State) vs => s.Follows vs) (l := entries ts)
    (fun e _ h => State.follows_apply h e) (s := {}) (.start rfl nofun)
  rw [run_eq_foldl, accepted_eq, List.filterMap_eq_flatMap_toList]
  exact followed

/-! ## Reports -/

def Superseded.all : List Superseded := [.opacity, .radius] ++ Corner.order.map .corner

theorem Superseded.mem_all (k : Superseded) : k ∈ all := by
  cases k with
  | corner k => cases k <;> decide
  | _ => decide

theorem Superseded.title_injective : Function.Injective Superseded.title := by
  have each : ∀ j ∈ all, ∀ k ∈ all, j.title = k.title → j = k := by decide
  exact fun j k => each j j.mem_all k k.mem_all

/-- An override has a message of its own. -/
theorem Warning.message_eq_superseded_iff (k : Superseded) (w : Warning) :
    w.message = (Warning.superseded k).message ↔ w = .superseded k := by
  refine ⟨fun same => ?_, congrArg message⟩
  have ends : EndsAsOverride w.message := same ▸ endsAsOverride k.title
  cases w with
  | superseded j => rw [Superseded.title_injective (List.append_cancel_right same)]
  | uniformReplaced k => exact absurd ends (by cases k <;> decide)
  | unread u =>
    cases u with
    | smoothing => exact absurd ends (by decide)
    | _ => exact absurd ends (not_endsAsOverride (by decide))
  | defaulted => exact absurd ends (by decide)

theorem tellsChanges_reading (ts : List Token) :
    (reading ts).TellsChanges (overrideLine .appearance (Superseded.opacity).title)
      (accepted ts) := by
  cases ts with
  | nil => exact .of_count (by decide)
  | cons t ts =>
    rw [reading_of_ne_nil (List.cons_ne_nil t ts)]
    exact (follows_run (t :: ts)).tellsChanges (State.noted_finish _) .appearance Error.message
      (Warning.message_eq_superseded_iff .opacity)

end Inspector.Appearance
