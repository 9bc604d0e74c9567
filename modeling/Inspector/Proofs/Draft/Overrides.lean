import Inspector.Proofs.Draft.Family
import Inspector.Proofs.Observation
import Mathlib.Data.List.Induction

/-!
# Values that are overridden

A concern that nothing but values of its own replaces holds the last of them, and a value that takes
the place of a different one is warned about. So there is one such warning for each change from a
value to the next, whatever is refused or said about other concerns between the two.

    changes vs = 0 ↔ all of vs are the same                                  (changes_eq_zero_iff)
    d.Follows k w vs → (d.put k cs w).Follows k w (vs ++ [cs])                         (Follows.put)
    d.Follows k w vs → the report of d tells the changes of vs                 (Follows.tellsChanges)
-/

namespace Inspector

/-! ## Changes -/

section

variable {α : Type} [DecidableEq α]

/-- How many members of a list differ from the one next before them. -/
def changes (l : List α) : Nat := (l.zip l.tail).countP fun p => p.1 ≠ p.2

theorem changes_concat (l : List α) (a : α) :
    changes (l ++ [a]) = changes l + if l.getLast?.any (· ≠ a) then 1 else 0 := by
  rw [changes, zip_tail_concat, List.countP_append, changes]
  cases l.getLast? with
  | none => simp
  | some b => simp

/-- Nothing changes exactly if all members are the same. -/
theorem changes_eq_zero_iff (l : List α) : changes l = 0 ↔ ∀ a ∈ l, ∀ b ∈ l, a = b := by
  induction l using List.reverseRecOn with
  | nil => simp [changes]
  | append_singleton l c ih =>
    rw [changes_concat, Nat.add_eq_zero_iff, ih]
    cases hl : l.getLast? with
    | none => simp [List.getLast?_eq_none_iff.1 hl]
    | some b =>
      have hb : b ∈ l := List.mem_of_getLast? hl
      constructor
      · rintro ⟨same, stays⟩
        have last : b = c := by simpa using stays
        have each : ∀ a ∈ l ++ [c], a = c := by
          intro a ha
          rcases List.mem_append.1 ha with earlier | latest
          · exact (same a earlier b hb).trans last
          · exact List.mem_singleton.1 latest
        intro a ha a' ha'
        rw [each a ha, each a' ha']
      · intro same
        have earlier {a : α} (ha : a ∈ l) : a ∈ l ++ [c] := List.mem_append_left _ ha
        have last : b = c := same b (earlier hb) c (List.mem_append_right _ List.mem_cons_self)
        refine ⟨fun a ha a' ha' => ?_, by simp [last]⟩
        exact same a (earlier ha) a' (earlier ha')

end

/-! ## Reports -/

/-- What is said of a value that takes the place of a different one. -/
def overrideLine (P : Property) (title : Text) : Text :=
  P.name ++ ": " ++ (title ++ " set more than once; the last value wins")

/-- The text ends as what is said of an override does. -/
def EndsAsOverride (text : Text) : Prop := "wins".toList <:+ text

instance (text : Text) : Decidable (EndsAsOverride text) :=
  inferInstanceAs (Decidable (_ <:+ text))

theorem endsAsOverride (title : Text) :
    EndsAsOverride (title ++ " set more than once; the last value wins") :=
  (by decide : "wins".toList <:+ " set more than once; the last value wins".toList).trans
    (List.suffix_append _ _)

theorem not_endsAsOverride {before after : Text} (h : after.getLast?.any (· != 's')) :
    ¬ EndsAsOverride (before ++ after) := by
  rintro ⟨start, whole⟩
  obtain ⟨c, last, other⟩ := (Option.any_eq_true _ _).1 h
  have ends : (before ++ after).getLast? = some 's' := by
    rw [← whole, List.getLast?_append]
    rfl
  rw [List.getLast?_append, last, Option.some_or] at ends
  rw [Option.some.inj ends] at other
  cases other

/-- The line stands in the report once for each change from a value to the next: never, if all of them
are the same. -/
structure Report.TellsChanges (report : Report) (line : Text) (vs : List (List Text)) : Prop where
  count : report.warnings.count line = changes vs
  silent_iff : line ∉ report.warnings ↔ ∀ a ∈ vs, ∀ b ∈ vs, a = b

theorem Report.TellsChanges.of_count {report : Report} {line : Text} {vs : List (List Text)}
    (count : report.warnings.count line = changes vs) : report.TellsChanges line vs where
  count := count
  silent_iff := by rw [← List.count_eq_zero, count, changes_eq_zero_iff]

/-! ## Drafts -/

namespace Draft

variable {κ ε ω : Type} [DecidableEq κ] [DecidableEq ω]

/-- The draft holds the last of the values for `k`, and has given the warning `w` once for each change
from a value to the next. -/
structure Follows (k : κ) (w : ω) (vs : List (List Text)) (d : Draft κ ε ω) : Prop where
  held : d.classes.get? k = vs.getLast?
  told : (d.noted (· = w)).length = changes vs

namespace Follows

variable {k : κ} {w : ω} {vs : List (List Text)} {d d' : Draft κ ε ω}

theorem start (classes : d.classes = {}) (warnings : ∀ w' ∈ d.warnings, w' ≠ w) :
    d.Follows k w [] where
  held := by rw [classes]; rfl
  told := by
    have none : d.noted (· = w) = [] :=
      List.filter_eq_nil_iff.2 fun w' hw' => by simpa using warnings w' hw'
    rw [none]
    rfl

theorem congr (h : d.Follows k w vs) (held : d'.classes.get? k = d.classes.get? k)
    (told : d'.noted (· = w) = d.noted (· = w)) : d'.Follows k w vs :=
  ⟨held.trans h.held, by rw [told, h.told]⟩

/-- A value is warned about if the one that is held is another. -/
theorem put (h : d.Follows k w vs) (cs : List Text) :
    (d.put k cs w).Follows k w (vs ++ [cs]) where
  held := by rw [classes_put, ClassMap.get?_set_self, List.getLast?_concat]
  told := by
    rw [put_eq_ite, h.held, changes_concat, ← h.told]
    split
    · rw [noted_warn_of_pos _ (by simp), List.length_append]
      rfl
    · rfl

theorem put_other (h : d.Follows k w vs) {k' : κ} (hk : k ≠ k') {again : ω} (hw : again ≠ w)
    (cs : List Text) : (d.put k' cs again).Follows k w vs :=
  h.congr (by rw [classes_put, ClassMap.get?_set, if_neg hk]) (noted_put _ _ _ (by simpa using hw))

theorem insert_other (h : d.Follows k w vs) {k' : κ} (hk : k ≠ k') (c : Text) :
    (d.insert k' c).Follows k w vs :=
  h.congr (by rw [classes_insert, ClassMap.get?_insert, if_neg hk]) (noted_insert _ _ _)

theorem discard_other (h : d.Follows k w vs) {k' : κ} (hk : k ≠ k') {w' : ω} (hw : w' ≠ w) :
    (d.discard k' w').Follows k w vs :=
  h.congr (by rw [classes_discard, ClassMap.get?_erase, if_neg hk])
    (noted_discard _ _ (by simpa using hw))

theorem error (h : d.Follows k w vs) (e : ε) : (d.error e).Follows k w vs :=
  h.congr rfl rfl

theorem warn (h : d.Follows k w vs) {w' : ω} (hw : w' ≠ w) : (d.warn w').Follows k w vs :=
  h.congr rfl (noted_warn_of_neg _ (by simpa using hw))

/-- What is of the family of `k` and `w` tells all of it. -/
theorem of_part {φ : Type} [DecidableEq φ] {F : Families κ ε ω φ} {g : φ} (hk : F.ofConcern k = g)
    (hw : F.ofWarning w = g) (same : d'.part F g = d.part F g) (h : d.Follows k w vs) :
    d'.Follows k w vs := by
  have own : ∀ w', decide (w' = w) → F.ofWarning w' = g := by
    intro w' same
    rw [of_decide_eq_true same, hw]
  refine h.congr ?_ ?_
  · rw [← get?_part _ hk, same, get?_part _ hk]
  · rw [← noted_part _ own, same, noted_part _ own]

/-- A report tells the changes, if its end adds none and no other warning has the message of `w`. -/
theorem tellsChanges (h : d.Follows k w vs) (ends : d'.noted (· = w) = d.noted (· = w))
    (P : Property) (errorText : ε → Text) {warningText : ω → Text}
    (own : ∀ w', warningText w' = warningText w ↔ w' = w) :
    (d'.report P errorText warningText).TellsChanges (P.name ++ ": " ++ warningText w) vs := by
  refine .of_count ?_
  rw [← h.told, ← ends, List.count_eq_length_filter]
  have kept := d'.filter_warnings_report P errorText warningText (p := (· = w))
    (q := (· == P.name ++ ": " ++ warningText w)) fun w' => by
      rw [Bool.eq_iff_iff, beq_iff_eq, decide_eq_true_iff, ← own w', List.append_cancel_left_eq]
  rw [kept, List.length_map]

end Follows

end Draft

end Inspector
