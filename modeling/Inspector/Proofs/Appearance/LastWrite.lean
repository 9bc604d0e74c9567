import Inspector.Proofs.Appearance.Family
import Inspector.Proofs.Appearance.Outcome

/-!
# Earlier values of an appearance

An appearance has one visibility and one opacity. What an entry gives of these is lost in the next
entry of the kind that is taken: the classes, with the default opacity where it is needed, are those
of the appearance without it.

    Gives k t → t updates k.concern alone, if it is not refused                (writes_of_gives)
    xs ++ t :: ys ++ u :: zs and xs ++ ys ++ u :: zs have the same classes     (reading_without)
-/

namespace Inspector.Appearance

/-! ## Kinds -/

/-- The kinds of values of which the last one alone counts. -/
inductive Kind where
  | visibility
  | opacity
  deriving DecidableEq, Repr

def Kind.concern : Kind → Concern
  | .visibility => .visibility
  | .opacity => .opacity

namespace Entry

/-- The kind of value that an entry gives, valid or not. -/
def kind? : Entry → Option Kind
  | .visible | .hidden | .unclear _ => some .visibility
  | .opacity _ => some .opacity
  | .uniform _ | .corner _ _ | .unread _ => none

theorem writes_of_kind {e : Entry} {k : Kind} (h : e.kind? = some k) :
    ClassMap.Writes k.concern (e.errors = []) e.updates := by
  cases e with
  | visible =>
    obtain rfl : Kind.visibility = k := Option.some.inj h
    exact .inl ⟨rfl, rfl⟩
  | hidden =>
    obtain rfl : Kind.visibility = k := Option.some.inj h
    exact .inl ⟨rfl, rfl⟩
  | unclear value => exact .inr ⟨List.cons_ne_nil _ _, rfl⟩
  | opacity value =>
    obtain rfl : Kind.opacity = k := Option.some.inj h
    simp only [updates, errors]
    cases Fragment.ofPercent? value with
    | none => exact .inr ⟨List.cons_ne_nil _ _, rfl⟩
    | some f => exact .inl ⟨rfl, rfl⟩
  | uniform | corner | unread => simp [kind?] at h

end Entry

/-- The token gives a value of this kind and nothing else, as every plain token of the kind does. -/
def Gives (k : Kind) (t : Token) : Prop := ∃ e, Entry.ofToken t = [e] ∧ e.kind? = some k

/-! ## Runs -/

/-- What a token changes in the classes. -/
def updates (t : Token) : List (ClassMap.Update Concern) := (Entry.ofToken t).flatMap Entry.updates

theorem writes_of_gives {k : Kind} {t : Token} (h : Gives k t) (s : State) :
    ClassMap.Writes k.concern ((s.step t).draft.errors = s.draft.errors) (updates t) := by
  obtain ⟨e, he, hk⟩ := h
  have errors : (s.step t).draft.errors = s.draft.errors ++ e.errors := by
    rw [State.step, he]
    exact s.errors_apply e
  rw [errors, List.append_right_eq_self, updates, he, List.flatMap_singleton]
  exact Entry.writes_of_kind hk

theorem classes_run (ts : List Token) :
    (run ts).draft.classes = ClassMap.after {} (ts.flatMap updates) :=
  ClassMap.after_foldl (fun s : State => s.draft.classes) State.classes_step ts {}

theorem classes_reading {ts : List Token} (h : ts ≠ []) :
    (reading ts).classes = (run ts).finish.draft.classes.classes := by
  rw [reading_of_ne_nil h, report, Draft.classes_report]

/-- An appearance has the same classes without a value that a later one of its kind replaces. -/
theorem reading_without {k : Kind} {t u : Token} (ht : Gives k t) (hu : Gives k u)
    (xs ys zs : List Token)
    (accepted : ((run (xs ++ t :: ys)).step u).draft.errors = (run (xs ++ t :: ys)).draft.errors) :
    (reading (xs ++ t :: ys ++ u :: zs)).classes = (reading (xs ++ ys ++ u :: zs)).classes := by
  have later := (writes_of_gives ht {}).subset (writes_of_gives hu _) accepted
  have same : (run (xs ++ t :: ys ++ u :: zs)).draft.classes =
      (run (xs ++ ys ++ u :: zs)).draft.classes := by
    rw [classes_run, classes_run, ClassMap.after_flatMap_without _ _ later]
  rw [classes_reading (by simp), classes_reading (by simp), State.classes_finish,
    State.classes_finish, Draft.contains_eq, Draft.contains_eq, same]

end Inspector.Appearance
