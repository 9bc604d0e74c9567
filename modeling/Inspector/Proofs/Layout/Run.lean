import Inspector.Layout
import Inspector.Proofs.Draft
import Mathlib.Logic.Relation

/-!
# What the tokens do to a layout

A token of a layout comes to a number of single changes: a value is taken or refused, a warning is
given. The relation `Change` lists them, with the mode in which each can happen, so that an
invariant of layouts is proved change by change.

    Changes mode s (s.step mode t)                                               (changes_step)
    P holds at first → P is kept by every change → P (run r)                    (run_invariant)
-/

namespace Inspector.Layout

open Text Relation

/-- The errors about a value that is not there, which only the end of a layout finds. -/
def Error.isMissing : Error → Bool
  | .missingDimensions | .missingWidth | .missingHeight | .missingFlow => true
  | _ => false

/-- The warnings that say what holds where nothing is given, which only the end of a layout gives. -/
def Warning.isDefault : Warning → Bool
  | .noAlignment | .noGap => true
  | _ => false

namespace State

/-- One change of the state `s` in a layout of this mode. -/
inductive Change (mode : Mode) (s : State) : State → Prop
  | warned {w : Warning} (h : w.isDefault = false) : Change mode s (s.warn w)
  | refused {e : Error} (h : e.isMissing = false) : Change mode s (s.error e)
  | size {d : Dimension} {value f : Text} (hd : d.isBound → mode = .auto)
      (h : Fragment.ofSize? value = some f) :
      Change mode s ((s.see d).put (.size d) (d.short ++ "-" ++ f) (.size d))
  | sizeRefused {d : Dimension} {value : Text} (hd : d.isBound → mode = .auto)
      (h : Fragment.ofSize? value = none) :
      Change mode s ((s.see d).error (.invalidSize d value))
  | clip (on : Bool) : Change mode s (s.setClip on)
  | spacing {axis : Spacing} {value f : Text} (hm : mode ≠ .auto)
      (h : Fragment.ofExtent? value = some f) :
      Change mode s (s.put (.spacing axis) (axis.name ++ "-" ++ f) (.spacing axis))
  | row (hm : mode = .auto) :
      Change mode s ({ s with flowSeen := true }.setDirection .row)
  | column (hm : mode = .auto) :
      Change mode s
        ({ s with flowSeen := true, draft := s.draft.discard .wrap .wrapRemoved }.setDirection
          .column)
  | wrap (hm : mode = .auto) (h : s.flow = some .row) :
      Change mode s { s with flowSeen := true, draft := s.draft.insert .wrap "flex-wrap" }
  | flowRefused {e : Error} (hm : mode = .auto) (h : e.isMissing = false) :
      Change mode s ({ s with flowSeen := true }.error e)
  | alignment {value : Text} {a : Alignment} (hm : mode = .auto)
      (h : Alignment.ofText? value = some a) : Change mode s (s.setAlignment value)
  | alignmentRefused {value : Text} (hm : mode = .auto) (h : Alignment.ofText? value = none) :
      Change mode s ({ s with alignmentSeen := true }.error (.invalidAlignment value))
  | gapBetween (hm : mode = .auto) :
      Change mode s { s with gapSeen := true, draft := s.draft.erase .gap, gapBetween := true }
  | gap {value f : Text} (hm : mode = .auto) (h : Fragment.ofExtent? value = some f) :
      Change mode s
        { { s with gapSeen := true }.put .gap ("gap-" ++ f) .gap with gapBetween := false }
  | gapRefused {value : Text} (hm : mode = .auto) (h : Fragment.ofExtent? value = none) :
      Change mode s ({ s with gapSeen := true }.error (.invalidGap value))
  | padding {kind : Padding} {value f : Text} (hm : mode = .auto)
      (h : Fragment.ofExtent? value = some f) :
      Change mode s
        ((s.replacePadding kind).put (.padding kind) (kind.short ++ "-" ++ f) (.padding kind))
  | baseline (hm : mode = .auto) (on : Bool) : Change mode s { s with baseline := on }

/-- Any number of changes, one after the other. -/
abbrev Changes (mode : Mode) : State → State → Prop := ReflTransGen (Change mode)

/-! ## Parts of a change -/

@[simp] theorem draft_see (s : State) (d : Dimension) : (s.see d).draft = s.draft := by
  cases d <;> rfl

@[simp] theorem classes_replacePadding (s : State) (kind : Padding) :
    (s.replacePadding kind).draft.classes =
      s.draft.classes.eraseAll (kind.replaced.map .padding) := by
  cases kind <;> simp [replacePadding, Padding.replaced, ClassMap.eraseAll]

@[simp] theorem errors_replacePadding (s : State) (kind : Padding) :
    (s.replacePadding kind).draft.errors = s.draft.errors := by
  cases kind <;> simp [replacePadding, Padding.replaced]

/-! ## Every token is a number of changes -/

variable {mode : Mode} (s : State)

theorem change_setSize {d : Dimension} (hd : d.isBound → mode = .auto) (value : Text) :
    Change mode s (s.setSize d value) := by
  unfold setSize
  split
  · next hf => exact .size hd hf
  · next hf => exact .sizeRefused hd hf

theorem change_setSpacing (hm : mode ≠ .auto) (axis : Spacing) (value : Text) :
    Change mode s (s.setSpacing axis value) := by
  unfold setSpacing
  split
  · next hf => exact .spacing hm hf
  · exact .refused rfl

theorem change_setFlow (hm : mode = .auto) (value : Text) : Change mode s (s.setFlow value) := by
  unfold setFlow
  dsimp only
  split
  · exact .column hm
  · split
    · exact .row hm
    · split
      · unfold setWrap
        split
        · next h => exact .wrap hm h
        · exact .flowRefused hm rfl
      · exact .flowRefused hm rfl

theorem change_setAlignment (hm : mode = .auto) (value : Text) :
    Change mode s (s.setAlignment value) := by
  cases h : Alignment.ofText? value with
  | some a => exact .alignment hm h
  | none =>
    rw [setAlignment, h]
    exact .alignmentRefused hm h

theorem change_setGap (hm : mode = .auto) (value : Text) : Change mode s (s.setGap value) := by
  unfold setGap
  dsimp only
  split
  · exact .gapBetween hm
  · split
    · next hf => exact .gap hm hf
    · next hf => exact .gapRefused hm hf

theorem change_setPadding (hm : mode = .auto) (i : Padding.Item) :
    Change mode s (s.setPadding i) := by
  unfold setPadding
  split
  · split
    · next hf => exact .padding hm hf
    · exact .refused rfl
  · exact .warned rfl

theorem change_setSetting (hm : mode = .auto) (i : Setting) : Change mode s (s.setSetting i) := by
  unfold setSetting
  split
  · split
    · exact .baseline hm _
    · exact .refused rfl
  · exact .warned rfl
  · exact .warned rfl

/-- A fold over items each of which is a number of changes. -/
theorem changes_foldl {α : Type} {f : State → α → State} (h : ∀ s a, Changes mode s (f s a))
    (l : List α) : Changes mode s (l.foldl f s) :=
  List.foldlRecOn l f .refl fun s' hs a _ => hs.trans (h s' a)

theorem changes_applyAuto (hm : mode = .auto) (a : AutoEntry) :
    Changes mode s (s.applyAuto a) := by
  cases a with
  | flow value => exact .single (s.change_setFlow hm value)
  | align value => exact .single (s.change_setAlignment hm value)
  | gap value => exact .single (s.change_setGap hm value)
  | settings items => exact s.changes_foldl (fun s i => .single (s.change_setSetting hm i)) items
  | padding items => exact s.changes_foldl (fun s i => .single (s.change_setPadding hm i)) items

theorem changes_apply (e : Entry) : Changes mode s (s.apply mode e) := by
  cases e with
  | marker => exact .refl
  | clip on => exact .single (.clip on)
  | unclearClip value => exact .single (.refused rfl)
  | size token d value =>
    simp only [apply]
    split
    · exact .single (.refused rfl)
    · next h => exact .single (s.change_setSize (fun hd => by simpa [hd] using h) value)
  | spacing token axis value =>
    simp only [apply]
    split
    · exact .single (.refused rfl)
    · next h => exact .single (s.change_setSpacing h axis value)
  | auto token a =>
    simp only [apply]
    split
    · next h => exact s.changes_applyAuto h a
    · exact .single (.refused rfl)
  | unread u => exact .single (.warned rfl)

theorem changes_step (t : Token) : Changes mode s (s.step mode t) :=
  s.changes_foldl (fun s e => s.changes_apply e) (Entry.ofToken t)

end State

/-! ## Runs -/

theorem changes_run (r : Resolution) :
    State.Changes r.mode { draft := { warnings := r.advice.toList.map .advice } } (run r) :=
  State.changes_foldl _ (fun s t => s.changes_step t) r.tokens

/-- An invariant that every change keeps holds after every run. -/
theorem run_invariant {r : Resolution} {P : State → Prop}
    (init : P { draft := { warnings := r.advice.toList.map .advice } })
    (step : ∀ {s s' : State}, P s → s.Change r.mode s' → P s') : P (run r) := by
  have reached := changes_run r
  generalize run r = s at reached
  induction reached with
  | refl => exact init
  | tail _ hc ih => exact step ih hc

/-! ## The end -/

namespace State

variable {mode : Mode} (s : State)

@[simp] theorem classes_checkSize : s.checkSize.draft.classes = s.draft.classes := by
  unfold checkSize
  split <;> rfl

@[simp] theorem errors_checkSize_eq_nil_iff :
    s.checkSize.draft.errors = [] ↔ s.draft.errors = [] ∧ s.widthSeen ∧ s.heightSeen := by
  unfold checkSize
  split <;> simp_all [error]

@[simp] theorem flowSeen_checkSize : s.checkSize.flowSeen = s.flowSeen := by
  unfold checkSize
  split <;> rfl

@[simp] theorem classes_checkAuto : s.checkAuto.draft.classes = s.draft.classes := by
  cases hf : s.flowSeen <;> cases ha : s.alignmentSeen <;> cases hg : s.gapSeen <;>
    simp [checkAuto, error, warn, hf, ha, hg]

@[simp] theorem errors_checkAuto_eq_nil_iff :
    s.checkAuto.draft.errors = [] ↔ s.draft.errors = [] ∧ s.flowSeen := by
  cases hf : s.flowSeen <;> cases ha : s.alignmentSeen <;> cases hg : s.gapSeen <;>
    simp [checkAuto, error, warn, hf, ha, hg]

@[simp] theorem errors_resolveAlignment : s.resolveAlignment.draft.errors = s.draft.errors := by
  cases hj : s.justifyClass? <;> cases hi : s.itemsClass? <;> simp [resolveAlignment, hj, hi]

@[simp] theorem errors_setDisplay : s.setDisplay.draft.errors = s.draft.errors := by
  unfold setDisplay
  split <;> rfl

/-- A layout ends without an error exactly if none was found on the way and its width, its height
and, in Auto layout, its flow were seen. -/
theorem errors_finish_eq_nil_iff : (s.finish mode).draft.errors = [] ↔
    s.draft.errors = [] ∧ s.widthSeen ∧ s.heightSeen ∧ (mode = .auto → s.flowSeen) := by
  unfold finish
  split
  · next hm =>
    rw [errors_setDisplay, errors_checkAuto_eq_nil_iff, errors_checkSize_eq_nil_iff,
      errors_resolveAlignment, flowSeen_checkSize]
    simp [hm, resolveAlignment, and_assoc]
  · next hm => simp [hm]

theorem contains_resolveAlignment {k : Concern} (h : s.draft.contains k) :
    s.resolveAlignment.draft.contains k := by
  cases hj : s.justifyClass? <;> cases hi : s.itemsClass? <;> simp_all [resolveAlignment]

theorem contains_setDisplay {k : Concern} (h : s.draft.contains k) :
    s.setDisplay.draft.contains k := by
  unfold setDisplay
  split <;> simp_all

/-- The end of a layout keeps every concern that is held. -/
theorem contains_finish {k : Concern} (h : s.draft.contains k) :
    (s.finish mode).draft.contains k := by
  unfold finish
  split
  · refine contains_setDisplay _ ?_
    rw [Draft.contains_eq, classes_checkAuto, classes_checkSize]
    exact s.contains_resolveAlignment h
  · simpa using h

end State

end Inspector.Layout
