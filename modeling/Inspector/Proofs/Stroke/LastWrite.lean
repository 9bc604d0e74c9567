import Inspector.Proofs.Stroke.Family
import Inspector.Proofs.Stroke.Outcome

/-!
# Earlier values of a stroke

A stroke has one color, one opacity and one style. What an entry gives of these is lost in the next
entry of the kind that is taken, so that the classes are those of the stroke without it.

    Gives k t → t updates k.concern alone, if it is not refused                (writes_of_gives)
    xs ++ t :: ys ++ u :: zs and xs ++ ys ++ u :: zs have the same classes     (reading_without)
-/

namespace Inspector.Stroke

/-! ## Kinds -/

/-- The kinds of values of which the last one alone counts. -/
inductive Kind where
  | color
  | opacity
  | style
  deriving DecidableEq, Repr

def Kind.concern : Kind → Concern
  | .color => .color
  | .opacity => .opacity
  | .style => .style

namespace Entry

/-- The kind of value that an entry gives, valid or not. -/
def kind? : Entry → Option Kind
  | .color _ => some .color
  | .opacity _ => some .opacity
  | .style _ => some .style
  | .position _ | .uniform _ | .side _ _ | .unread _ => none

theorem writes_of_kind {e : Entry} {k : Kind} (h : e.kind? = some k) :
    ClassMap.Writes k.concern (e.errors = []) e.updates := by
  cases e with
  | color value =>
    obtain rfl : Kind.color = k := Option.some.inj h
    simp only [updates, errors]
    cases Color.ofText? value "border" with
    | none => exact .inr ⟨List.cons_ne_nil _ _, rfl⟩
    | some c => exact .inl ⟨rfl, rfl⟩
  | opacity value =>
    obtain rfl : Kind.opacity = k := Option.some.inj h
    simp only [updates, errors]
    cases Fragment.ofPercent? value with
    | none => exact .inr ⟨List.cons_ne_nil _ _, rfl⟩
    | some f => exact .inl ⟨rfl, rfl⟩
  | style value =>
    obtain rfl : Kind.style = k := Option.some.inj h
    simp only [updates, errors]
    split
    · exact .inl ⟨rfl, rfl⟩
    · exact .inr ⟨List.cons_ne_nil _ _, rfl⟩
  | position | uniform | side | unread => simp [kind?] at h

end Entry

/-- The token gives a value of this kind and nothing else, as every plain token of the kind does. -/
def Gives (k : Kind) (t : Token) : Prop := ∃ e, Entry.ofToken t = [e] ∧ e.kind? = some k

/-! ## Runs -/

/-- What a token changes in the classes. -/
def updates (t : Token) : List (ClassMap.Update Concern) := (Entry.ofToken t).flatMap Entry.updates

theorem writes_of_gives {k : Kind} {t : Token} (h : Gives k t) (s : State) :
    ClassMap.Writes k.concern ((s.step t).errors = s.errors) (updates t) := by
  obtain ⟨e, he, hk⟩ := h
  have errors : (s.step t).errors = s.errors ++ e.errors := by
    rw [State.step, he]
    exact State.errors_apply s e
  rw [errors, List.append_right_eq_self, updates, he, List.flatMap_singleton]
  exact Entry.writes_of_kind hk

theorem classes_run (ts : List Token) :
    (run ts).classes = ClassMap.after {} (ts.flatMap updates) :=
  ClassMap.after_foldl (fun s : State => s.classes) State.classes_step ts {}

theorem classes_reading {ts : List Token} (h : ts ≠ []) :
    (reading ts).classes = (run ts).classes.classes := by
  rw [reading_of_ne_nil h, Draft.classes_report, State.classes_finish]

/-- A stroke has the same classes without a value that a later one of its kind replaces. -/
theorem reading_without {k : Kind} {t u : Token} (ht : Gives k t) (hu : Gives k u)
    (xs ys zs : List Token)
    (accepted : ((run (xs ++ t :: ys)).step u).errors = (run (xs ++ t :: ys)).errors) :
    (reading (xs ++ t :: ys ++ u :: zs)).classes = (reading (xs ++ ys ++ u :: zs)).classes := by
  have later := (writes_of_gives ht {}).subset (writes_of_gives hu _) accepted
  rw [classes_reading (by simp), classes_reading (by simp), classes_run, classes_run,
    ClassMap.after_flatMap_without _ _ later]

end Inspector.Stroke
