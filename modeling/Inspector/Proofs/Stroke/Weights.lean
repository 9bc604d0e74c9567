import Inspector.Proofs.Precedence.Parts
import Inspector.Proofs.Stroke.LastWrite
import Inspector.Proofs.Stroke.Vocabulary

/-!
# The weights of a stroke

The weight of a whole stroke takes the place of the weights of its sides, and the weight of a side
that of the whole. What is left at the end is either the weight of the whole, if that was given
last, or the last weight of each side behind it. A stroke that is written misses its weight exactly
if none was taken, and its color likewise.

    weightOrder.Holds (the weights of run ts) (weights ts)                            (holds_run)
    (run ts).isWeighted ↔ weights ts ≠ []                                   (isWeighted_run_iff)
-/

namespace Inspector.Stroke

open Text

/-! ## Values -/

def Warning.isReplacement : Warning → Bool
  | .uniformReplaced _ => true
  | .superseded _ | .unread _ => false

/-- The concern of the weight of one side, or of the whole. -/
def weightConcern : Option Side → Concern
  | none => .weight
  | some s => .side s

/-- The weights of the whole stroke, `none`, and of its sides. -/
def weightOrder : Precedence (Option Side) Concern Warning where
  concern := weightConcern
  spell _ c := c
  replaced
    | none => Side.order.map some
    | some _ => [none]
  warning?
    | some s, none => some (.uniformReplaced s)
    | _, _ => none
  isOwn := Warning.isReplacement
  concern_injective := by
    rintro (_ | s) (_ | s') h <;> simp_all [weightConcern]
  replaced_nodup
    | none => by decide
    | some _ => List.nodup_singleton none
  isOwn_of_warning? {k j w} h := by
    cases k <;> cases j <;> simp_all [Warning.isReplacement]
    simp [← h]

theorem isWholeAndParts_weightOrder : weightOrder.IsWholeAndParts where
  whole s := by cases s <;> decide
  part _ := rfl
  silent j := by cases j <;> rfl

/-- The weight that an entry gives, with its side, if the value is one. -/
def Entry.weight? : Entry → Option (Option Side × Text)
  | .uniform value => (weightClass? "border" value).map (none, ·)
  | .side s value => (weightClass? ("border-" ++ s.short) value).map (some s, ·)
  | .color _ | .opacity _ | .position _ | .style _ | .unread _ => none

/-- The color that an entry gives, if the value is one. -/
def Entry.color? : Entry → Option Color
  | .color value => Color.ofText? value "border"
  | .opacity _ | .position _ | .style _ | .uniform _ | .side _ _ | .unread _ => none

/-- The weights that are taken, one after the other. -/
def weights (ts : List Token) : List (Option Side × Text) := (entries ts).filterMap Entry.weight?

/-- The colors that are taken, one after the other. -/
def colors (ts : List Token) : List Color := (entries ts).filterMap Entry.color?

/-! ## Steps -/

namespace State

/-- What a draft holds of the weights, after one more entry. -/
theorem holds_apply {s : State} {vs : List (Option Side × Text)}
    (h : weightOrder.Holds (Draft.part families .weight s) vs) (e : Entry) :
    weightOrder.Holds (Draft.part families .weight (s.apply e)) (vs ++ e.weight?.toList) := by
  have other (hf : e.family ≠ .weight) (hw : e.weight? = none) :
      weightOrder.Holds (Draft.part families .weight (s.apply e)) (vs ++ e.weight?.toList) := by
    rw [(acts_apply e).elsewhere hf.symm, hw, Option.toList_none, List.append_nil]
    exact h
  have own (hf : e.family = .weight) : Draft.part families .weight (s.apply e) =
      apply (Draft.part families .weight s) e := by
    rw [← hf]
    exact (acts_apply e).here s
  cases e with
  | color | opacity | position | style => exact other (by simp [Entry.family]) rfl
  | uniform value =>
    rw [own rfl]
    simp only [apply, setUniform, Entry.weight?]
    cases weightClass? "border" value with
    | none => simpa using h.error (Error.invalidWeight value)
    | some c =>
      have given : weightOrder.Holds (weightOrder.give (Draft.part families .weight s) (none, c)
          (.superseded .weight)) (vs ++ [(none, c)]) := h.give _ rfl
      rwa [isWholeAndParts_weightOrder.give_whole] at given
  | side k value =>
    rw [own rfl]
    simp only [apply, setSide, Entry.weight?]
    cases weightClass? ("border-" ++ k.short) value with
    | none => simpa using h.error (Error.invalidSideWeight k value)
    | some c => exact h.give (some k, c) rfl
  | unread u =>
    cases u with
    | key | token => exact other (by simp [Entry.family, Unread.family]) rfl
    | side | surplus =>
      rw [own rfl]
      rw [Entry.weight?, Option.toList_none, List.append_nil]
      exact h.warn rfl

end State

/-! ## Runs -/

theorem holds_run (ts : List Token) :
    weightOrder.Holds (Draft.part families .weight (run ts)) (weights ts) := by
  have held := tracked_foldl (R := fun s vs => weightOrder.Holds (Draft.part families .weight s) vs)
    (l := entries ts) (fun e _ h => State.holds_apply h e) (s := {}) .empty
  rw [run_eq_foldl, weights, List.filterMap_eq_flatMap_toList]
  exact held

/-! ## The end -/

/-- The weight of a side, or of the whole, is held if it is left of those that were taken. -/
theorem contains_weight_run_iff (ts : List Token) (k : Option Side) :
    (run ts).classes.contains (weightConcern k) ↔ k ∈ (standing (weights ts)).map (·.1) := by
  have within : families.ofConcern (weightConcern k) = .weight := by cases k <;> rfl
  rw [← Draft.contains_part _ within, ← isWholeAndParts_weightOrder.left_eq_standing]
  exact (holds_run ts).contains k

theorem isWeighted_run_iff (ts : List Token) : (run ts).isWeighted ↔ weights ts ≠ [] := by
  have every (s : Side) : s ∈ Side.order := by cases s <;> decide
  have anyHeld : (run ts).isWeighted ↔ ∃ k, (run ts).classes.contains (weightConcern k) := by
    simp [State.isWeighted, Option.exists, weightConcern, every]
  have anyLeft : (∃ k, k ∈ (standing (weights ts)).map (·.1)) ↔ weights ts ≠ [] := by
    rw [Ne, ← weightOrder.left_eq_nil_iff, isWholeAndParts_weightOrder.left_eq_standing,
      ← List.map_eq_nil_iff (f := fun v => v.1), List.eq_nil_iff_forall_not_mem, not_forall_not]
  rw [anyHeld, ← anyLeft]
  exact exists_congr (contains_weight_run_iff ts)

theorem State.isColored_apply (s : State) (e : Entry) : (s.apply e).classes.contains .color =
    (s.classes.contains .color || e.color?.isSome) := by
  have other (hf : e.family ≠ .color) (hc : e.color? = none) :
      (s.apply e).classes.contains .color = (s.classes.contains .color || e.color?.isSome) := by
    have within : families.ofConcern .color = .color := rfl
    rw [hc, Option.isSome_none, Bool.or_false, ← Draft.contains_part _ within,
      (acts_apply e).elsewhere hf.symm, Draft.contains_part _ within]
  cases e with
  | color value =>
    simp only [apply, setColor, Entry.color?]
    cases Color.ofText? value "border" <;> simp
  | opacity | position | style | uniform | side => exact other (by simp [Entry.family]) rfl
  | unread u => exact other (by cases u <;> simp [Entry.family, Unread.family]) rfl

theorem isColored_run_iff (ts : List Token) : (run ts).contains .color ↔ colors ts ≠ [] := by
  have seen := seen_foldl (fun s : State => s.classes.contains .color) State.isColored_apply
    (entries ts) {}
  rw [← run_eq_foldl, ClassMap.contains_empty, Bool.false_or] at seen
  rw [colors, Draft.contains_eq, seen, List.any_eq_true, Ne, List.filterMap_eq_nil_iff]
  simp [Option.isSome_iff_ne_none]

/-! ## Missing values -/

/-- The errors about a value that is missing at the end. -/
def Error.isMissing : Error → Bool
  | .missingColor | .missingWeight => true
  | _ => false

theorem run_not_missing (ts : List Token) : ∀ err ∈ (run ts).errors, err.isMissing = false := by
  intro err herr
  rw [errors_run] at herr
  obtain ⟨e, -, he⟩ := List.mem_flatMap.1 herr
  cases e with
  | unread u => simp [Entry.errors] at he
  | _ =>
    simp only [Entry.errors] at he
    split_ifs at he
    · simp at he
    · rw [List.mem_singleton.1 he]
      rfl

theorem State.errors_finish (s : State) : s.finish.errors = s.errors ++
    (if s.contains .color then [] else [.missingColor]) ++
      if s.isWeighted then [] else [.missingWeight] := by
  unfold finish
  dsimp only
  cases s.contains .color <;> cases hw : s.isWeighted <;> simp [hw]

/-- The message of a missing value is that of no other error. -/
theorem Error.message_eq_iff_of_isMissing {err : Error} (h : err.isMissing) (e : Error) :
    e.message = err.message ↔ e = err := by
  unfold message
  cases err with
  | missingColor => cases e <;> simp
  | missingWeight => cases e <;> simp
  | _ => simp [isMissing] at h

/-- A missing value is reported exactly if there are tokens and the end of their run finds it. -/
theorem mem_errors_reading_iff (ts : List Token) {err : Error} (h : err.isMissing) :
    Property.stroke.name ++ ": " ++ err.message ∈ (reading ts).errors ↔
      ts ≠ [] ∧ err ∈ (run ts).finish.errors := by
  cases ts with
  | nil => simp [reading]
  | cons t ts =>
    rw [reading_of_ne_nil (List.cons_ne_nil t ts), Draft.mem_errors_report_iff]
    simp only [Error.message_eq_iff_of_isMissing h, exists_eq_right, ne_eq, reduceCtorEq,
      not_false_eq_true, true_and]

theorem missingColor_mem_iff (ts : List Token) :
    .missingColor ∈ (run ts).finish.errors ↔ colors ts = [] := by
  have found := mt (run_not_missing ts .missingColor) (by simp [Error.isMissing])
  rw [State.errors_finish, ← not_iff_not, ← Ne, ← isColored_run_iff]
  cases (run ts).contains .color <;> cases (run ts).isWeighted <;> simp [found]

theorem missingWeight_mem_iff (ts : List Token) :
    .missingWeight ∈ (run ts).finish.errors ↔ weights ts = [] := by
  have found := mt (run_not_missing ts .missingWeight) (by simp [Error.isMissing])
  rw [State.errors_finish, ← not_iff_not, ← Ne, ← isWeighted_run_iff]
  cases (run ts).contains .color <;> cases (run ts).isWeighted <;> simp [found]

/-- A stroke without a token alone says nothing. -/
theorem isEmpty_reading_iff (ts : List Token) : (reading ts).isEmpty ↔ ts = [] := by
  refine ⟨fun h => ?_, fun h => by rw [h]; rfl⟩
  obtain ⟨⟨classes, errors⟩, -⟩ : ((reading ts).classes = [] ∧ (reading ts).errors = []) ∧
      (reading ts).warnings = [] := by simpa [Report.isEmpty] using h
  by_contra written
  -- Without an error there is a color, and that has a class.
  have colored : (run ts).classes.contains .color := by
    refine (isColored_run_iff ts).2 fun none => ?_
    have missed := (mem_errors_reading_iff ts (show Error.isMissing .missingColor from rfl)).2
      ⟨written, (missingColor_mem_iff ts).2 none⟩
    rw [errors] at missed
    cases missed
  obtain ⟨cs, held⟩ := Option.isSome_iff_exists.1 colored
  obtain ⟨c, rfl, -⟩ := (shaped_run ts).of_get? held
  have found := (shaped_run ts).mem_classes_iff.2 ⟨_, _, held, List.mem_singleton_self c⟩
  rw [← classes_reading written, classes] at found
  cases found

/-- The weight of a stroke is that of the whole, if that was taken last, and otherwise the last
weight of each side behind it. A stroke that is written misses its weight exactly if none was taken,
and its color exactly if none was; it says nothing exactly if it is not written. -/
theorem weight_of_whole_or_sides (ts : List Token) (input : Option Text) :
    ((run ts).finish.classes.restrict fun k => k.family = .weight).entries =
      (standing (weights ts)).map (fun v => (weightConcern v.1, [v.2])) ∧
    ((run ts).finish.contains .weight ↔ (weights ts).getLast?.any (·.1.isNone)) ∧
    (read input).classes = (run (tokens input)).finish.classes.classes ∧
    ("stroke: missing stroke weight".toList ∈ (read input).errors ↔
      tokens input ≠ [] ∧ weights (tokens input) = []) ∧
    ("stroke: missing stroke color".toList ∈ (read input).errors ↔
      tokens input ≠ [] ∧ colors (tokens input) = []) ∧
    ((read input).isEmpty ↔ tokens input = []) := by
  refine ⟨?_, ?_, ?_, ?_, ?_, ?_⟩
  · rw [State.classes_finish, ← isWholeAndParts_weightOrder.left_eq_standing]
    exact (holds_run ts).entries
  · rw [Draft.contains_eq, State.classes_finish]
    exact (contains_weight_run_iff ts none).trans (Precedence.none_mem_standing_iff _)
  · rw [read_eq, State.classes_finish]
    cases tokens input with
    | nil => rfl
    | cons t ts => exact classes_reading (List.cons_ne_nil t ts)
  · rw [read_eq, ← missingWeight_mem_iff]
    exact mem_errors_reading_iff _ (show Error.isMissing .missingWeight from rfl)
  · rw [read_eq, ← missingColor_mem_iff]
    exact mem_errors_reading_iff _ (show Error.isMissing .missingColor from rfl)
  · rw [read_eq]
    exact isEmpty_reading_iff (tokens input)

end Inspector.Stroke
