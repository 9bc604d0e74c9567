import Inspector.Proofs.Layout.Run

/-!
# The advice on a layout's mode

A layout is read in the same way whatever warnings it starts with. So an advice on how to write the
mode stands before every other warning and changes nothing else.

    (s.preceded ws).apply mode e = (s.apply mode e).preceded ws                  (preceded_apply)
    reading ⟨m, ts, some a⟩ = (reading ⟨m, ts, none⟩).advised a                 (reading_advised)
-/

namespace Inspector.Layout

open Text

/-! ## Warnings in front -/

namespace State

variable (s : State) (ws : List Warning)

/-- The state with further warnings before its own. -/
def preceded (ws : List Warning) (s : State) : State := { s with draft := s.draft.preceded ws }

@[simp] theorem preceded_error (e : Error) :
    (s.preceded ws).error e = (s.error e).preceded ws := rfl

@[simp] theorem preceded_warn (w : Warning) : (s.preceded ws).warn w = (s.warn w).preceded ws := by
  simp [preceded, warn]

@[simp] theorem preceded_put (k : Concern) (c : Text) (again : Superseded) :
    (s.preceded ws).put k c again = (s.put k c again).preceded ws := by
  simp [preceded, put]

@[simp] theorem preceded_see (d : Dimension) : (s.preceded ws).see d = (s.see d).preceded ws := by
  cases d <;> rfl

@[simp] theorem preceded_replacePadding (kind : Padding) :
    (s.preceded ws).replacePadding kind = (s.replacePadding kind).preceded ws := by
  cases kind <;> simp [preceded, replacePadding, Padding.replaced]

theorem preceded_setSize (d : Dimension) (value : Text) :
    (s.preceded ws).setSize d value = (s.setSize d value).preceded ws := by
  cases h : Fragment.ofSize? value <;> simp [setSize, h]

theorem preceded_setClip (on : Bool) :
    (s.preceded ws).setClip on = (s.setClip on).preceded ws := by
  cases on <;> rfl

theorem preceded_setSpacing (axis : Spacing) (value : Text) :
    (s.preceded ws).setSpacing axis value = (s.setSpacing axis value).preceded ws := by
  cases h : Fragment.ofExtent? value <;> simp [setSpacing, h]

theorem preceded_setDirection (f : Flow) :
    (s.preceded ws).setDirection f = (s.setDirection f).preceded ws := by
  cases f <;> simp [preceded, setDirection, put]

theorem preceded_setWrap : (s.preceded ws).setWrap = s.setWrap.preceded ws := by
  have flow : (s.preceded ws).flow = s.flow := rfl
  unfold setWrap
  rw [flow]
  by_cases h : s.flow = some .row
  · rw [if_pos h, if_pos h]
    rfl
  · rw [if_neg h, if_neg h]
    rfl

theorem preceded_setFlow (value : Text) :
    (s.preceded ws).setFlow value = (s.setFlow value).preceded ws := by
  let seen : State := { s with flowSeen := true }
  unfold setFlow
  dsimp only
  split
  · rw [show (s.preceded ws).draft.discard .wrap .wrapRemoved = _ from Draft.preceded_discard ..]
    exact preceded_setDirection { seen with draft := s.draft.discard .wrap .wrapRemoved } ws .column
  · split
    · exact preceded_setDirection seen ws .row
    · split
      · exact preceded_setWrap seen ws
      · rfl

theorem preceded_setAlignment (value : Text) :
    (s.preceded ws).setAlignment value = (s.setAlignment value).preceded ws := by
  let seen : State := { s with alignmentSeen := true }
  have other (a : Alignment) :
      (if (seen.preceded ws).alignment.any (· != a) then
          (seen.preceded ws).warn (.superseded .alignment)
        else seen.preceded ws) =
        (if seen.alignment.any (· != a) then
          seen.warn (.superseded .alignment) else seen).preceded ws := by
    have alignment : (seen.preceded ws).alignment = seen.alignment := rfl
    rw [alignment, preceded_warn]
    split <;> rfl
  unfold setAlignment
  cases h : Alignment.ofText? value with
  | none => rfl
  | some a => exact congrArg (fun s : State => { s with alignment := some a }) (other a)

theorem preceded_setGap (value : Text) :
    (s.preceded ws).setGap value = (s.setGap value).preceded ws := by
  let seen : State := { s with gapSeen := true }
  unfold setGap
  dsimp only
  split
  · rfl
  · cases h : Fragment.ofExtent? value with
    | none => rfl
    | some f =>
      have gap := preceded_put seen ws .gap ("gap-" ++ f) .gap
      exact congrArg (fun s : State => { s with gapBetween := false }) gap

theorem preceded_setPadding (i : Padding.Item) :
    (s.preceded ws).setPadding i = (s.setPadding i).preceded ws := by
  cases i with
  | value kind value => cases h : Fragment.ofExtent? value <;> simp [setPadding, h]
  | unknown token => exact preceded_warn s ws _

theorem preceded_setSetting (i : Setting) :
    (s.preceded ws).setSetting i = (s.setSetting i).preceded ws := by
  cases i with
  | baseline name value =>
    simp only [setSetting]
    split <;> rfl
  | unsupported name => exact preceded_warn s ws _
  | unknown token => exact preceded_warn s ws _

theorem preceded_apply (mode : Mode) (e : Entry) :
    (s.preceded ws).apply mode e = (s.apply mode e).preceded ws := by
  cases e with
  | marker => rfl
  | clip on => exact s.preceded_setClip ws on
  | unclearClip value => rfl
  | size token d value =>
    simp only [apply]
    split
    · rfl
    · exact s.preceded_setSize ws d value
  | spacing token axis value =>
    simp only [apply]
    split
    · rfl
    · exact s.preceded_setSpacing ws axis value
  | auto token a =>
    simp only [apply]
    split
    · cases a with
      | flow value => exact s.preceded_setFlow ws value
      | align value => exact s.preceded_setAlignment ws value
      | gap value => exact s.preceded_setGap ws value
      | settings items => exact List.foldl_hom (preceded ws) fun s i => s.preceded_setSetting ws i
      | padding items => exact List.foldl_hom (preceded ws) fun s i => s.preceded_setPadding ws i
    · rfl
  | unread u => exact s.preceded_warn ws _

theorem preceded_step (mode : Mode) (t : Token) :
    (s.preceded ws).step mode t = (s.step mode t).preceded ws :=
  List.foldl_hom (preceded ws) fun s e => s.preceded_apply ws mode e

theorem preceded_resolveAlignment :
    (s.preceded ws).resolveAlignment = s.resolveAlignment.preceded ws := by
  have justify : (s.preceded ws).justifyClass? = s.justifyClass? := rfl
  have items : (s.preceded ws).itemsClass? = s.itemsClass? := rfl
  unfold resolveAlignment
  rw [justify, items]
  cases s.justifyClass? <;> cases s.itemsClass? <;> rfl

theorem preceded_checkSize : (s.preceded ws).checkSize = s.checkSize.preceded ws := by
  have width : (s.preceded ws).widthSeen = s.widthSeen := rfl
  have height : (s.preceded ws).heightSeen = s.heightSeen := rfl
  unfold checkSize
  rw [width, height]
  cases s.widthSeen <;> cases s.heightSeen <;> rfl

theorem preceded_checkAuto : (s.preceded ws).checkAuto = s.checkAuto.preceded ws := by
  cases hf : s.flowSeen <;> cases ha : s.alignmentSeen <;> cases hg : s.gapSeen <;>
    simp [checkAuto, preceded, error, warn, hf, ha, hg]

theorem preceded_setDisplay : (s.preceded ws).setDisplay = s.setDisplay.preceded ws := by
  have contains : (s.preceded ws).draft.contains = s.draft.contains := rfl
  unfold setDisplay
  rw [contains]
  split <;> rfl

theorem preceded_finish (mode : Mode) :
    (s.preceded ws).finish mode = (s.finish mode).preceded ws := by
  unfold finish
  split
  · rw [preceded_resolveAlignment, preceded_checkSize, preceded_checkAuto, preceded_setDisplay]
  · exact s.preceded_checkSize ws

end State

/-! ## Readings of a resolution -/

/-- The reading of a layout whose mode is settled. -/
def Resolution.reading (r : Resolution) : Reading :=
  ⟨r.mode, ((run r).finish r.mode).draft.report .layout Error.message Warning.message⟩

/-- The reading with an advice before every other warning. -/
def Reading.advised (r : Reading) (a : Advice) : Reading :=
  { r with report.warnings :=
      (Property.name .layout ++ ": " ++ a.message) :: r.report.warnings }

theorem read_eq (input : Option Text) : read input = (Mode.resolve input).reading := rfl

theorem reading_advised (mode : Mode) (ts : List Token) (a : Advice) :
    Resolution.reading ⟨mode, ts, some a⟩ = (Resolution.reading ⟨mode, ts, none⟩).advised a := by
  have start : run ⟨mode, ts, some a⟩ = (run ⟨mode, ts, none⟩).preceded [.advice a] := by
    show ts.foldl (State.step mode) (({} : State).preceded [.advice a]) =
      (ts.foldl (State.step mode) {}).preceded [.advice a]
    exact List.foldl_hom (State.preceded [.advice a]) fun s t => s.preceded_step _ mode t
  unfold Resolution.reading
  rw [start, State.preceded_finish]
  rfl

end Inspector.Layout
