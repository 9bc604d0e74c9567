import Inspector.Proofs.Layout.Advice
import Inspector.Proofs.Layout.Outcome

/-!
# Earlier values of a layout

A layout has one value of each dimension, one clipping, one spacing of each axis, one gap, one
alignment and one baseline. Two runs, one with an earlier value and one without it, hold the same
but for that kind of value; they stay so through all tokens between, and hold the same altogether
once a later value of the kind is taken. Of what a run holds, the flow, the alignment, a shared gap
and the baseline become classes at the end only.

    Entry.Gives k e → (s.apply mode e).Apart (some k) s                          (apart_of_gives)
    s.Apart k s' → (s.apply mode e).Apart k (s'.apply mode e)                       (Apart.apply)
    xs ++ t :: ys ++ u :: zs and xs ++ ys ++ u :: zs have the same classes     (reading_without)
-/

namespace Inspector.Layout

open Text

/-! ## Kinds -/

/-- The kinds of values of which the last one alone counts. -/
inductive Kind where
  | size (d : Dimension)
  | clip
  | spacing (axis : Spacing)
  | gap
  | alignment
  | baseline
  deriving DecidableEq, Repr

/-- The concerns of a kind before the end of the layout. -/
def Kind.concerns : Kind → List Concern
  | .size d => [.size d]
  | .clip => [.clip]
  | .spacing axis => [.spacing axis]
  | .gap => [.gap]
  | .alignment | .baseline => []

/-- The kind of value that an entry gives, valid or not. -/
def Entry.kind? : Entry → Option Kind
  | .size _ d _ => some (.size d)
  | .clip _ | .unclearClip _ => some .clip
  | .spacing _ axis _ => some (.spacing axis)
  | .auto _ (.gap _) => some .gap
  | .auto _ (.align _) => some .alignment
  | .auto _ (.settings [.baseline _ _]) => some .baseline
  | _ => none

/-- The token gives a value of this kind and nothing else, as every plain token of the kind does. -/
def Gives (k : Kind) (t : Token) : Prop := ∃ e, Entry.ofToken t = [e] ∧ e.kind? = some k

/-! ## What becomes classes at the end -/

/-- The flow that a value asks for; a wrap asks for none. -/
def flowOf? (value : Text) : Option Flow :=
  let word := lower (trim value)
  if word = "vertical" ∨ word = "column" ∨ word = "↓" then some .column
  else if word = "horizontal" ∨ word = "row" ∨ word = "→" then some .row
  else none

/-- Whether a gap shares out the space, or leaves a space of its own. -/
def betweenOf? (value : Text) : Option Bool :=
  let word := lower (trim value)
  if word = "auto" ∨ word = "space-between" ∨ word = "↔" then some true
  else (Fragment.ofExtent? value).map fun _ => false

def Setting.baseline? : Setting → Option Bool
  | .baseline _ value => value.elim (some true) toggle?
  | .unsupported _ | .unknown _ => none

/-- What an entry of Auto layout gives of the flow, the alignment, the gap and the baseline. -/
structure Given where
  flow : Option Flow := none
  alignment : Option Alignment := none
  gapBetween : Option Bool := none
  baseline : Option Bool := none
  deriving DecidableEq, Repr

def AutoEntry.given : AutoEntry → Given
  | .flow value => { flow := flowOf? value }
  | .align value => { alignment := Alignment.ofText? value }
  | .gap value => { gapBetween := betweenOf? value }
  | .settings items => { baseline := (items.filterMap Setting.baseline?).getLast? }
  | .padding _ => {}

def Entry.given (mode : Mode) : Entry → Given
  | .auto _ a => if mode = .auto then a.given else {}
  | _ => {}

namespace State

variable (s : State)

theorem meaning_setFlow (value : Text) : view.meaning (s.setFlow value) =
    ((flowOf? value).or s.flow, s.alignment, s.gapBetween, s.baseline) := by
  unfold setFlow flowOf?
  dsimp only
  split
  · rfl
  · split
    · rfl
    · split
      · unfold setWrap
        split <;> rfl
      · rfl

theorem meaning_setAlignment (value : Text) : view.meaning (s.setAlignment value) =
    (s.flow, (Alignment.ofText? value).or s.alignment, s.gapBetween, s.baseline) := by
  unfold setAlignment
  dsimp only
  cases Alignment.ofText? value with
  | none => rfl
  | some a =>
    dsimp only
    split <;> rfl

theorem meaning_setGap (value : Text) : view.meaning (s.setGap value) =
    (s.flow, s.alignment, (betweenOf? value).getD s.gapBetween, s.baseline) := by
  unfold setGap betweenOf?
  dsimp only
  split
  · rfl
  · cases Fragment.ofExtent? value <;> rfl

theorem meaning_setPadding (i : Padding.Item) :
    view.meaning (s.setPadding i) = view.meaning s := by
  unfold setPadding
  split
  · split <;> rfl
  · rfl

theorem meaning_setSetting (i : Setting) : view.meaning (s.setSetting i) =
    (s.flow, s.alignment, s.gapBetween, i.baseline?.getD s.baseline) := by
  cases i with
  | baseline name value =>
    simp only [setSetting, Setting.baseline?]
    cases value.elim (some true) toggle? <;> rfl
  | unsupported name => rfl
  | unknown token => rfl

theorem meaning_settings (items : List Setting) : view.meaning (items.foldl setSetting s) =
    (s.flow, s.alignment, s.gapBetween,
      (items.filterMap Setting.baseline?).getLast?.getD s.baseline) := by
  have each (s : State) (i : Setting) := s.meaning_setSetting i
  have flow := kept_foldl State.flow (fun s i => congrArg (·.1) (each s i)) items s
  have alignment := kept_foldl State.alignment (fun s i => congrArg (·.2.1) (each s i)) items s
  have between := kept_foldl State.gapBetween (fun s i => congrArg (·.2.2.1) (each s i)) items s
  have baseline := latest_foldl State.baseline (fun s i => congrArg (·.2.2.2) (each s i)) items s
  exact Prod.ext flow (Prod.ext alignment (Prod.ext between baseline))

/-- What an entry gives replaces what the state holds, and nothing else does. -/
theorem meaning_apply (mode : Mode) (e : Entry) : view.meaning (s.apply mode e) =
    ((e.given mode).flow.or s.flow, (e.given mode).alignment.or s.alignment,
      (e.given mode).gapBetween.getD s.gapBetween, (e.given mode).baseline.getD s.baseline) := by
  cases e with
  | clip on => cases on <;> rfl
  | size token d value =>
    simp only [apply]
    split
    · rfl
    · simp only [setSize]
      cases Fragment.ofSize? value <;> exact s.meaning_see d
  | spacing token axis value =>
    simp only [apply, setSpacing]
    split
    · rfl
    · cases Fragment.ofExtent? value <;> rfl
  | auto token a =>
    simp only [apply, Entry.given]
    split
    · cases a with
      | flow value => exact s.meaning_setFlow value
      | align value => exact s.meaning_setAlignment value
      | gap value => exact s.meaning_setGap value
      | settings items => exact s.meaning_settings items
      | padding items => exact kept_foldl view.meaning meaning_setPadding items s
    · rfl
  | _ => rfl

theorem flow_apply (mode : Mode) (e : Entry) :
    (s.apply mode e).flow = (e.given mode).flow.or s.flow :=
  congrArg (·.1) (s.meaning_apply mode e)

theorem alignment_apply (mode : Mode) (e : Entry) :
    (s.apply mode e).alignment = (e.given mode).alignment.or s.alignment :=
  congrArg (·.2.1) (s.meaning_apply mode e)

theorem gapBetween_apply (mode : Mode) (e : Entry) :
    (s.apply mode e).gapBetween = (e.given mode).gapBetween.getD s.gapBetween :=
  congrArg (·.2.2.1) (s.meaning_apply mode e)

theorem baseline_apply (mode : Mode) (e : Entry) :
    (s.apply mode e).baseline = (e.given mode).baseline.getD s.baseline :=
  congrArg (·.2.2.2) (s.meaning_apply mode e)

end State

/-! ## Values of a kind -/

/-- What a value of this kind gives, once it is taken, beside its classes. -/
def Kind.Takes : Kind → Given → Prop
  | .gap, g => ∃ between, g = { gapBetween := some between }
  | .alignment, g => ∃ a, g = { alignment := some a }
  | .baseline, g => ∃ on, g = { baseline := some on }
  | .size _, g | .clip, g | .spacing _, g => g = {}

/-- Nothing is given but, at most, what a value of this kind gives. -/
structure Kind.Spares (k : Kind) (g : Given) : Prop where
  flow : g.flow = none
  alignment : k ≠ .alignment → g.alignment = none
  gapBetween : k ≠ .gap → g.gapBetween = none
  baseline : k ≠ .baseline → g.baseline = none

theorem Kind.Takes.spares {k : Kind} {g : Given} (h : k.Takes g) : k.Spares g := by
  cases k with
  | gap =>
    obtain ⟨between, rfl⟩ := h
    exact ⟨rfl, fun _ => rfl, fun hk => absurd rfl hk, fun _ => rfl⟩
  | alignment =>
    obtain ⟨a, rfl⟩ := h
    exact ⟨rfl, fun hk => absurd rfl hk, fun _ => rfl, fun _ => rfl⟩
  | baseline =>
    obtain ⟨on, rfl⟩ := h
    exact ⟨rfl, fun _ => rfl, fun _ => rfl, fun hk => absurd rfl hk⟩
  | _ =>
    obtain rfl : g = {} := h
    exact ⟨rfl, fun _ => rfl, fun _ => rfl, fun _ => rfl⟩

/-- How an entry of the kind `k` comes out: refused with an error and nothing else, or taken, with
all concerns of the kind. -/
inductive Entry.Writes (mode : Mode) (k : Kind) (s : State) (e : Entry) : Prop
  | refused (error : (s.apply mode e).draft.errors ≠ s.draft.errors)
      (updates : e.updates mode s.flow = []) (given : e.given mode = {})
  | taken (updates : (e.updates mode s.flow).map ClassMap.Update.concern = k.concerns)
      (given : k.Takes (e.given mode))

namespace State

variable (s : State)

theorem writes_gap (token : Token) (value : Text) :
    (Entry.auto token (.gap value)).Writes .auto .gap s := by
  by_cases between : lower (trim value) = "auto" ∨ lower (trim value) = "space-between" ∨
      lower (trim value) = "↔"
  · have updates : gapUpdates value = [.erase .gap] := if_pos between
    have shared : betweenOf? value = some true := if_pos between
    exact .taken (congrArg (List.map _) updates) ⟨true, congrArg (Given.mk none none · none) shared⟩
  · cases hf : Fragment.ofExtent? value with
    | none =>
      have updates : gapUpdates value = [] := by simp only [gapUpdates, if_neg between, hf]; rfl
      have given : betweenOf? value = none := by simp only [betweenOf?, if_neg between, hf]; rfl
      refine .refused ?_ updates (congrArg (Given.mk none none · none) given)
      show (s.setGap value).draft.errors ≠ _
      simp only [setGap, if_neg between, hf]
      exact Draft.errors_error_ne _ _
    | some f =>
      have updates : gapUpdates value = [.set .gap ["gap-" ++ f]] := by
        simp only [gapUpdates, if_neg between, hf]
        rfl
      have own : betweenOf? value = some false := by simp only [betweenOf?, if_neg between, hf]; rfl
      exact .taken (congrArg (List.map _) updates) ⟨false, congrArg (Given.mk none none · none) own⟩

theorem writes_alignment (token : Token) (value : Text) :
    (Entry.auto token (.align value)).Writes .auto .alignment s := by
  cases ha : Alignment.ofText? value with
  | none =>
    refine .refused ?_ rfl (congrArg (Given.mk none · none none) ha)
    show (s.setAlignment value).draft.errors ≠ _
    simp only [setAlignment, ha]
    exact Draft.errors_error_ne _ _
  | some a => exact .taken rfl ⟨a, congrArg (Given.mk none · none none) ha⟩

theorem writes_baseline (token : Token) (name : Text) (value : Option Text) :
    (Entry.auto token (.settings [.baseline name value])).Writes .auto .baseline s := by
  let setting : Setting := .baseline name value
  cases hv : value.elim (some true) toggle? with
  | none =>
    have given : ([setting].filterMap Setting.baseline?).getLast? = none := by
      rw [List.filterMap_cons_none (show setting.baseline? = none from hv)]
      rfl
    refine .refused ?_ rfl (congrArg (Given.mk none none none) given)
    show (s.setSetting setting).draft.errors ≠ _
    simp only [setting, setSetting, hv]
    exact Draft.errors_error_ne _ _
  | some on =>
    have given : ([setting].filterMap Setting.baseline?).getLast? = some on := by
      rw [List.filterMap_cons_some (show setting.baseline? = some on from hv)]
      rfl
    exact .taken rfl ⟨on, congrArg (Given.mk none none none) given⟩

theorem writes_of_kind (mode : Mode) {k : Kind} {e : Entry} (h : e.kind? = some k) :
    e.Writes mode k s := by
  cases e with
  | clip on =>
    obtain rfl : Kind.clip = k := Option.some.inj h
    cases on <;> exact .taken rfl rfl
  | unclearClip value => exact .refused (Draft.errors_error_ne _ _) rfl rfl
  | size token d value =>
    obtain rfl : Kind.size d = k := Option.some.inj h
    by_cases bound : d.isBound && mode != .auto
    · refine .refused ?_ (if_pos bound) rfl
      rw [apply, if_pos bound]
      exact Draft.errors_error_ne _ _
    · cases hf : Fragment.ofSize? value with
      | none =>
        refine .refused ?_ (by simp only [Entry.updates, if_neg bound, hf, Option.elim_none]) rfl
        simp only [apply, if_neg bound, setSize, hf]
        exact (s.draft_see d) ▸ Draft.errors_error_ne _ _
      | some f =>
        refine .taken ?_ rfl
        simp only [Entry.updates, if_neg bound, hf, Option.elim_some]
        rfl
  | spacing token axis value =>
    obtain rfl : Kind.spacing axis = k := Option.some.inj h
    by_cases hm : mode = .auto
    · refine .refused ?_ (if_pos hm) rfl
      rw [apply, if_pos hm]
      exact Draft.errors_error_ne _ _
    · cases hf : Fragment.ofExtent? value with
      | none =>
        refine .refused ?_ (by simp only [Entry.updates, if_neg hm, hf, Option.elim_none]) rfl
        simp only [apply, if_neg hm, setSpacing, hf]
        exact Draft.errors_error_ne _ _
      | some f =>
        refine .taken ?_ rfl
        simp only [Entry.updates, if_neg hm, hf, Option.elim_some]
        rfl
  | auto token a =>
    by_cases hm : mode = .auto
    · subst hm
      cases a with
      | gap value =>
        obtain rfl : Kind.gap = k := Option.some.inj h
        exact s.writes_gap token value
      | align value =>
        obtain rfl : Kind.alignment = k := Option.some.inj h
        exact s.writes_alignment token value
      | settings items =>
        obtain ⟨name, value, rfl⟩ : ∃ name value, items = [.baseline name value] := by
          unfold Entry.kind? at h
          split at h <;> simp_all
        obtain rfl : Kind.baseline = k := Option.some.inj h
        exact s.writes_baseline token name value
      | flow value => simp [Entry.kind?] at h
      | padding items => simp [Entry.kind?] at h
    · refine .refused ?_ (if_neg hm) (if_neg hm)
      rw [apply, if_neg hm]
      exact Draft.errors_error_ne _ _
  | marker | unread => simp [Entry.kind?] at h

end State

/-! ## Two runs -/

namespace State

/-- The states differ at most in the values of the kind `k`; in none, if there is no kind. -/
structure Apart (k : Option Kind) (s s' : State) : Prop where
  classes : s.draft.classes.DiffersIn (k.elim [] Kind.concerns) s'.draft.classes
  flow : s.flow = s'.flow
  alignment : k ≠ some .alignment → s.alignment = s'.alignment
  gapBetween : k ≠ some .gap → s.gapBetween = s'.gapBetween
  baseline : k ≠ some .baseline → s.baseline = s'.baseline

variable {s s' : State} {mode : Mode} {e : Entry} {k : Kind}

/-- Two runs stay apart by no more than before. -/
theorem Apart.apply {k : Option Kind} (h : s.Apart k s') (mode : Mode) (e : Entry) :
    (s.apply mode e).Apart k (s'.apply mode e) := by
  constructor
  · rw [classes_apply, classes_apply, h.flow]
    exact h.classes.after _
  · rw [flow_apply, flow_apply, h.flow]
  · intro hk
    rw [alignment_apply, alignment_apply, h.alignment hk]
  · intro hk
    rw [gapBetween_apply, gapBetween_apply, h.gapBetween hk]
  · intro hk
    rw [baseline_apply, baseline_apply, h.baseline hk]

theorem Apart.foldl_step {k : Option Kind} (h : s.Apart k s') (mode : Mode) (ts : List Token) :
    (ts.foldl (step mode) s).Apart k (ts.foldl (step mode) s') :=
  List.foldl_rel h fun _ _ _ _ ht => List.foldl_rel ht fun e _ _ _ he => he.apply mode e

/-- A value of the kind, taken or refused, sets the runs with it and without it apart. -/
theorem apart_of_writes (h : e.Writes mode k s) : (s.apply mode e).Apart (some k) s := by
  have concerns : (e.updates mode s.flow).map ClassMap.Update.concern ⊆ k.concerns := by
    cases h with
    | refused _ updates _ =>
      rw [updates]
      exact List.nil_subset _
    | taken updates _ =>
      rw [updates]
      exact List.Subset.refl _
  have given : k.Spares (e.given mode) := by
    cases h with
    | refused _ _ given =>
      rw [given]
      exact ⟨rfl, fun _ => rfl, fun _ => rfl, fun _ => rfl⟩
    | taken _ given => exact given.spares
  constructor
  · rw [classes_apply]
    exact ClassMap.differsIn_after _ concerns
  · rw [flow_apply, given.flow, Option.none_or]
  · intro hk
    rw [alignment_apply, given.alignment fun h => hk (congrArg some h), Option.none_or]
  · intro hk
    rw [gapBetween_apply, given.gapBetween fun h => hk (congrArg some h), Option.getD_none]
  · intro hk
    rw [baseline_apply, given.baseline fun h => hk (congrArg some h), Option.getD_none]

/-- A value of the kind that is taken brings the two runs together. -/
theorem Apart.join (h : s.Apart (some k) s') (he : e.Writes mode k s)
    (accepted : (s.apply mode e).draft.errors = s.draft.errors) :
    (s.apply mode e).Apart none (s'.apply mode e) := by
  cases he with
  | refused error _ _ => exact absurd accepted error
  | taken updates given =>
    have both := h.apply mode e
    constructor
    · have named : k.concerns ⊆ (e.updates mode s.flow).map ClassMap.Update.concern := by
        rw [updates]
        exact List.Subset.refl _
      rw [classes_apply, classes_apply, ← h.flow]
      exact h.classes.overwritten named
    · exact both.flow
    · intro _
      by_cases hk : k = .alignment
      · subst hk
        obtain ⟨a, ha⟩ := given
        rw [alignment_apply, alignment_apply, ha, Option.some_or, Option.some_or]
      · exact both.alignment fun h => hk (Option.some.inj h)
    · intro _
      by_cases hk : k = .gap
      · subst hk
        obtain ⟨between, hb⟩ := given
        rw [gapBetween_apply, gapBetween_apply, hb, Option.getD_some, Option.getD_some]
      · exact both.gapBetween fun h => hk (Option.some.inj h)
    · intro _
      by_cases hk : k = .baseline
      · subst hk
        obtain ⟨on, ho⟩ := given
        rw [baseline_apply, baseline_apply, ho, Option.getD_some, Option.getD_some]
      · exact both.baseline fun h => hk (Option.some.inj h)

/-- Runs that hold the same end with the same classes. -/
theorem Apart.classes_finish (h : s.Apart none s') (mode : Mode) :
    (s.finish mode).draft.classes = (s'.finish mode).draft.classes := by
  have classes : s.draft.classes = s'.draft.classes := h.classes
  have justify : s.justifyClass? = s'.justifyClass? := by
    unfold justifyClass?
    rw [h.gapBetween nofun, h.alignment nofun, h.flow]
  have items : s.itemsClass? = s'.itemsClass? := by
    unfold itemsClass?
    rw [h.baseline nofun, h.alignment nofun, h.flow]
  have aligned : s.resolveAlignment.draft.classes = s'.resolveAlignment.draft.classes := by
    unfold resolveAlignment
    rw [justify, items]
    cases s'.justifyClass? <;> cases s'.itemsClass? <;> simp [classes]
  have displayed {r r' : State} (hr : r.draft.classes = r'.draft.classes) :
      r.setDisplay.draft.classes = r'.setDisplay.draft.classes := by
    have contains : r.draft.contains = r'.draft.contains := congrArg ClassMap.contains hr
    unfold setDisplay
    rw [contains]
    split
    · exact congrArg (fun m : ClassMap Concern => m.prepend .display "flex") hr
    · exact hr
  unfold finish
  split
  · refine displayed ?_
    rw [classes_checkAuto, classes_checkAuto, classes_checkSize, classes_checkSize]
    exact aligned
  · rw [classes_checkSize, classes_checkSize]
    exact classes

end State

/-! ## Readings -/

theorem run_append (mode : Mode) (ts us : List Token) :
    run ⟨mode, ts ++ us, none⟩ = us.foldl (State.step mode) (run ⟨mode, ts, none⟩) := by
  simp only [run, List.foldl_append]

/-- A layout has the same classes without a value that a later one of its kind replaces. -/
theorem reading_without {k : Kind} {t u : Token} (ht : Gives k t) (hu : Gives k u)
    (xs ys zs : List Token) (mode : Mode)
    (accepted : ((run ⟨mode, xs ++ t :: ys, none⟩).step mode u).draft.errors =
      (run ⟨mode, xs ++ t :: ys, none⟩).draft.errors) :
    (Resolution.reading ⟨mode, xs ++ t :: ys ++ u :: zs, none⟩).report.classes =
      (Resolution.reading ⟨mode, xs ++ ys ++ u :: zs, none⟩).report.classes := by
  obtain ⟨e, he, hk⟩ := ht
  obtain ⟨e', he', hk'⟩ := hu
  have step {t : Token} {e : Entry} (h : Entry.ofToken t = [e]) (s : State) :
      s.step mode t = s.apply mode e := by
    rw [State.step, h, List.foldl_cons, List.foldl_nil]
  have first : ((run ⟨mode, xs, none⟩).step mode t).Apart (some k) (run ⟨mode, xs, none⟩) := by
    rw [step he]
    exact State.apart_of_writes (State.writes_of_kind _ mode hk)
  have between : (run ⟨mode, xs ++ t :: ys, none⟩).Apart (some k) (run ⟨mode, xs ++ ys, none⟩) := by
    rw [run_append, List.foldl_cons, run_append]
    exact first.foldl_step mode ys
  have joined : ((run ⟨mode, xs ++ t :: ys, none⟩).step mode u).Apart none
      ((run ⟨mode, xs ++ ys, none⟩).step mode u) := by
    rw [step he'] at accepted
    rw [step he', step he']
    exact between.join (State.writes_of_kind _ mode hk') accepted
  have behind : (run ⟨mode, xs ++ t :: ys ++ u :: zs, none⟩).Apart none
      (run ⟨mode, xs ++ ys ++ u :: zs, none⟩) := by
    rw [run_append mode (xs ++ t :: ys), run_append mode (xs ++ ys), List.foldl_cons,
      List.foldl_cons]
    exact joined.foldl_step mode zs
  exact congrArg ClassMap.classes (behind.classes_finish mode)

end Inspector.Layout
