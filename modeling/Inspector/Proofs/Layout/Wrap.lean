import Inspector.Proofs.Layout.Alignment

/-!
# The wrap of a layout

A wrap is taken behind a row only, and a column takes it back. So an Auto layout wraps at its end if
a wrap stands behind a row, with no column between the two, and no column stands behind the wrap. A
wrap anywhere else is an error and nothing more, and a column that meets a wrap says so.

    (run ⟨.auto, ts, a⟩).part .flow tracks flowWords ts                              (tracks_run)
    flex-wrap is among the classes ↔ WrapStands (flowWords ts)            (wrap_mem_autoClasses)
    the classes of the flow = that of the last direction                     (flow_autoClasses)
    the errors about a wrap = eachBefore refusal [] (flowWords ts)             (refusals_reading)
    the warnings about a wrap = eachBefore removal [] (flowWords ts)           (removals_reading)
-/

namespace Inspector.Layout

open Text

/-! ## Words -/

/-- What a token can say about the flow. -/
inductive FlowWord where
  | row
  | column
  | wrap
  deriving DecidableEq, Repr

/-- The direction of a word; a wrap has none. -/
def FlowWord.flow? : FlowWord → Option Flow
  | .row => some .row
  | .column => some .column
  | .wrap => none

/-- The word that the value of a flow is. -/
def FlowWord.ofText? (value : Text) : Option FlowWord :=
  let word := lower (trim value)
  if word = "vertical" ∨ word = "column" ∨ word = "↓" then some .column
  else if word = "horizontal" ∨ word = "row" ∨ word = "→" then some .row
  else if word = "wrap" ∨ word = "↵" then some .wrap
  else none

/-- The word of a token, be it an arrow on its own or the value of a flow. -/
def flowWord? : Token → Option FlowWord
  | .bare text =>
    if lower text = "↓" then some .column
    else if lower text = "→" then some .row
    else if lower text = "↵" then some .wrap
    else none
  | .pair key value => if lower key = "flow" then FlowWord.ofText? value else none

def flowWords (ts : List Token) : List FlowWord := ts.filterMap flowWord?

/-- The last direction among the words. -/
def direction (ws : List FlowWord) : Option Flow := (ws.filterMap FlowWord.flow?).getLast?

theorem direction_concat (ws : List FlowWord) (w : FlowWord) :
    direction (ws ++ [w]) = w.flow?.or (direction ws) := by
  rw [direction, List.filterMap_append]
  cases w with
  | wrap => exact congrArg List.getLast? (List.append_nil _)
  | row | column => exact List.getLast?_concat

/-- A wrap stands behind a row that is the last direction before it, and in front of no column. -/
def WrapStands (ws : List FlowWord) : Prop :=
  ∃ xs ys, ws = xs ++ .wrap :: ys ∧ direction xs = some .row ∧ FlowWord.column ∉ ys

theorem wrapStands_iff_exists_lt {ws : List FlowWord} : WrapStands ws ↔
    ∃ n < ws.length, ws[n]? = some .wrap ∧ direction (ws.take n) = some .row ∧
      FlowWord.column ∉ ws.drop (n + 1) := by
  constructor
  · rintro ⟨xs, ys, rfl, row, spared⟩
    exact ⟨xs.length, by simp, by simp, by simpa using row, by simpa using spared⟩
  · rintro ⟨n, hn, wrap, row, spared⟩
    refine ⟨ws.take n, ws.drop (n + 1), ?_, row, spared⟩
    obtain ⟨_, hw⟩ := List.getElem?_eq_some_iff.1 wrap
    rw [← hw, List.getElem_cons_drop, List.take_append_drop]

instance (ws : List FlowWord) : Decidable (WrapStands ws) :=
  decidable_of_iff _ wrapStands_iff_exists_lt.symm

theorem not_wrapStands_nil : ¬ WrapStands [] := by decide

theorem wrapStands_concat {ws : List FlowWord} {w : FlowWord} : WrapStands (ws ++ [w]) ↔
    (w = .wrap ∧ direction ws = some .row) ∨ (w ≠ .column ∧ WrapStands ws) := by
  constructor
  · rintro ⟨xs, ys, h, row, spared⟩
    rcases List.eq_nil_or_concat' ys with rfl | ⟨ys, v, rfl⟩
    · obtain ⟨rfl, same⟩ := List.append_inj' h rfl
      exact .inl ⟨(List.cons.inj same).1, row⟩
    · rw [← List.cons_append, ← List.append_assoc] at h
      obtain ⟨rfl, same⟩ := List.append_inj' h rfl
      obtain rfl := (List.cons.inj same).1
      simp only [List.mem_append, List.mem_singleton, not_or] at spared
      exact .inr ⟨Ne.symm spared.2, xs, ys, rfl, row, spared.1⟩
  · rintro (⟨rfl, row⟩ | ⟨other, xs, ys, rfl, row, spared⟩)
    · exact ⟨ws, [], rfl, row, List.not_mem_nil⟩
    · refine ⟨xs, ys ++ [w], by rw [List.append_assoc, List.cons_append], row, ?_⟩
      simp only [List.mem_append, List.mem_singleton, not_or]
      exact ⟨spared, other.symm⟩

/-- A layout that wraps is a row. -/
theorem direction_of_wrapStands {ws : List FlowWord} (h : WrapStands ws) :
    direction ws = some .row := by
  induction ws using List.reverseRecOn with
  | nil => exact absurd h not_wrapStands_nil
  | append_singleton ws w ih =>
    rw [direction_concat]
    rcases wrapStands_concat.1 h with ⟨rfl, row⟩ | ⟨other, earlier⟩
    · exact row
    · cases w with
      | row => rfl
      | column => exact absurd rfl other
      | wrap => exact ih earlier

/-! ## Tokens -/

/-- A token has a flow for its only entry, or is not about the flow. -/
theorem ofToken_flow (t : Token) :
    (∃ value, Entry.ofToken t = [.auto t (.flow value)] ∧
      flowWord? t = FlowWord.ofText? value) ∨ (family t ≠ .flow ∧ flowWord? t = none) := by
  cases t with
  | bare text =>
    by_cases arrow : lower text = "↓" ∨ lower text = "→" ∨ lower text = "↵"
    · refine .inl ⟨lower text, ?_, ?_⟩
      · unfold Entry.ofToken Entry.ofBare
        dsimp only
        rcases arrow with h | h | h <;> rw [h] <;> rfl
      · rw [flowWord?]
        rcases arrow with h | h | h <;> rw [h] <;> rfl
    · refine .inr ⟨?_, ?_⟩
      · show bareFamily text ≠ .flow
        unfold bareFamily
        dsimp only
        rw [if_neg arrow]
        split_ifs <;> decide
      · obtain ⟨down, right, back⟩ : _ ∧ _ ∧ _ := by simpa only [not_or] using arrow
        rw [flowWord?, if_neg down, if_neg right, if_neg back]
  | pair key value =>
    by_cases flow : lower key = "flow"
    · refine .inl ⟨value, ?_, if_pos flow⟩
      rw [Entry.ofToken, flow]
      rfl
    · refine .inr ⟨?_, if_neg flow⟩
      have other : keyFamily (lower key) ≠ .flow := by
        unfold keyFamily
        rw [if_neg flow]
        split_ifs <;> decide
      rw [family, modeFamily]
      split_ifs
      · decide
      · decide
      · exact other

/-! ## Steps -/

def Error.isRefusal : Error → Bool
  | .wrapWithoutRow => true
  | _ => false

def Warning.isRemoval : Warning → Bool
  | .wrapRemoved => true
  | _ => false

/-- The class of a direction. -/
def flowClass : Flow → Text
  | .row => "flex-row"
  | .column => "flex-col"

/-- Whether a word is a wrap that stands behind no row. -/
def IsRefused (before : List FlowWord) (w : FlowWord) : Prop :=
  w = .wrap ∧ direction before ≠ some .row

/-- Whether a word is a column that takes back a wrap. -/
def Removes (before : List FlowWord) (w : FlowWord) : Prop := w = .column ∧ WrapStands before

instance (before : List FlowWord) (w : FlowWord) : Decidable (IsRefused before w) :=
  inferInstanceAs (Decidable (_ ∧ _))

instance (before : List FlowWord) (w : FlowWord) : Decidable (Removes before w) :=
  inferInstanceAs (Decidable (_ ∧ _))

/-- A state has of the flow what the words leave, and has said of each what there is to say. -/
structure State.Tracks (s : State) (ws : List FlowWord) : Prop where
  flow : s.flow = direction ws
  shown : s.draft.classes.get? .flow = (direction ws).map fun f => [flowClass f]
  wrap : s.draft.classes.contains .wrap ↔ WrapStands ws
  refusals : s.draft.errors.filter Error.isRefusal =
    eachBefore (fun before w => if IsRefused before w then [.wrapWithoutRow] else []) [] ws
  removals : s.draft.noted Warning.isRemoval =
    eachBefore (fun before w => if Removes before w then [.wrapRemoved] else []) [] ws

namespace State

section

variable (s : State) (f : Flow)

/-- What a flow does to a state, by the word that it is. -/
theorem setFlow_eq (value : Text) : s.setFlow value =
    match FlowWord.ofText? value with
    | some .column => State.setDirection
      { s with flowSeen := true, draft := s.draft.discard .wrap .wrapRemoved } .column
    | some .row => State.setDirection { s with flowSeen := true } .row
    | some .wrap => State.setWrap { s with flowSeen := true }
    | none => State.error { s with flowSeen := true } (.invalidFlow value) := by
  unfold setFlow FlowWord.ofText?
  dsimp only
  split_ifs <;> rfl

theorem setDirection_eq : s.setDirection f =
    { s.put .flow (flowClass f) .flow with flow := some f } := by
  cases f <;> rfl

theorem get?_setDirection : (s.setDirection f).draft.classes.get? .flow = some [flowClass f] := by
  rw [setDirection_eq, put, Draft.classes_put, ClassMap.get?_set_self]

theorem contains_wrap_setDirection :
    (s.setDirection f).draft.classes.contains .wrap = s.draft.classes.contains .wrap := by
  rw [setDirection_eq, put, Draft.classes_put, ClassMap.contains_set]
  rfl

theorem errors_setDirection : (s.setDirection f).draft.errors = s.draft.errors := by
  rw [setDirection_eq]
  exact Draft.errors_put _ _ _ _

theorem removals_setDirection :
    (s.setDirection f).draft.noted Warning.isRemoval = s.draft.noted Warning.isRemoval := by
  rw [setDirection_eq]
  exact Draft.noted_put _ _ _ rfl

end

namespace Tracks

variable {s : State} {ws : List FlowWord}

theorem start (advice : Option Advice) :
    (State.part .flow { draft := { warnings := advice.toList.map .advice } }).Tracks [] := by
  have wrap : ({} : ClassMap Concern).contains .wrap ↔ WrapStands [] :=
    iff_of_false Bool.false_ne_true not_wrapStands_nil
  cases advice <;> exact ⟨rfl, rfl, wrap, rfl, rfl⟩

theorem error (h : s.Tracks ws) {e : Error} (he : e.isRefusal = false) :
    (s.error e).Tracks ws where
  flow := h.flow
  shown := h.shown
  wrap := h.wrap
  refusals := by
    rw [← h.refusals]
    show (s.draft.errors ++ [e]).filter _ = _
    rw [List.filter_append, List.filter_cons_of_neg (by simp [he]), List.filter_nil,
      List.append_nil]
  removals := h.removals

theorem row (h : s.Tracks ws) : (s.setDirection .row).Tracks (ws ++ [.row]) where
  flow := (direction_concat ws .row).symm
  shown := by rw [get?_setDirection, direction_concat]; rfl
  wrap := by
    rw [contains_wrap_setDirection, h.wrap, wrapStands_concat]
    simp
  refusals := by
    rw [errors_setDirection, h.refusals, eachBefore_concat, if_neg (by simp [IsRefused]),
      List.append_nil]
  removals := by
    rw [removals_setDirection, h.removals, eachBefore_concat, if_neg (by simp [Removes]),
      List.append_nil]

theorem column (h : s.Tracks ws) :
    (State.setDirection { s with draft := s.draft.discard .wrap .wrapRemoved } .column).Tracks
      (ws ++ [.column]) where
  flow := (direction_concat ws .column).symm
  shown := by
    rw [get?_setDirection, direction_concat]
    rfl
  wrap := by
    rw [contains_wrap_setDirection, wrapStands_concat, Draft.classes_discard]
    simp
  refusals := by
    rw [errors_setDirection, Draft.errors_discard, h.refusals, eachBefore_concat,
      if_neg (by simp [IsRefused]), List.append_nil]
  removals := by
    rw [removals_setDirection, eachBefore_concat, ← h.removals]
    unfold Draft.discard
    split
    · next present =>
      rw [if_pos ⟨rfl, h.wrap.1 present⟩]
      exact Draft.noted_warn_of_pos _ rfl
    · next absent =>
      rw [if_neg fun removes => absent (h.wrap.2 removes.2), List.append_nil]

theorem setWrap (h : s.Tracks ws) : s.setWrap.Tracks (ws ++ [.wrap]) := by
  have flow : direction (ws ++ [.wrap]) = direction ws := direction_concat ws .wrap
  have removals : s.draft.noted Warning.isRemoval = eachBefore
      (fun before w => if Removes before w then [.wrapRemoved] else []) [] (ws ++ [.wrap]) := by
    rw [eachBefore_concat, if_neg (by simp [Removes]), List.append_nil]
    exact h.removals
  unfold State.setWrap
  split
  · next row =>
    rw [h.flow] at row
    constructor
    · exact h.flow.trans flow.symm
    · rw [flow, ← h.shown, Draft.classes_insert, ClassMap.get?_insert]
      rfl
    · rw [wrapStands_concat, Draft.classes_insert, ClassMap.contains_insert]
      simp [row]
    · rw [eachBefore_concat, if_neg (by simp [IsRefused, row]), List.append_nil]
      exact h.refusals
    · exact removals
  · next other =>
    rw [h.flow] at other
    constructor
    · exact h.flow.trans flow.symm
    · rw [flow]
      exact h.shown
    · rw [wrapStands_concat]
      simpa [State.error, other] using h.wrap
    · rw [eachBefore_concat, if_pos ⟨rfl, other⟩, ← h.refusals]
      exact List.filter_append _ _
    · exact removals

theorem setFlow (h : s.Tracks ws) (value : Text) :
    (s.setFlow value).Tracks (ws ++ (FlowWord.ofText? value).toList) := by
  have seen : State.Tracks { s with flowSeen := true } ws :=
    ⟨h.flow, h.shown, h.wrap, h.refusals, h.removals⟩
  rw [setFlow_eq]
  cases FlowWord.ofText? value with
  | none =>
    rw [Option.toList_none, List.append_nil]
    exact seen.error rfl
  | some w =>
    cases w with
    | row => exact seen.row
    | column => exact seen.column
    | wrap => exact seen.setWrap

theorem step (h : (s.part .flow).Tracks ws) (t : Token) :
    ((s.step .auto t).part .flow).Tracks (ws ++ (flowWord? t).toList) := by
  rcases ofToken_flow t with ⟨value, entry, word⟩ | ⟨other, none⟩
  · have set : s.step .auto t = s.setFlow value := by
      rw [State.step, entry]
      rfl
    rw [set, (acts_setFlow value).here, word]
    exact h.setFlow value
  · rw [(acts_step .auto t).elsewhere other.symm, none, Option.toList_none, List.append_nil]
    exact h

end Tracks

end State

/-! ## Runs -/

theorem tracks_run (ts : List Token) (advice : Option Advice) :
    ((run ⟨.auto, ts, advice⟩).part .flow).Tracks (flowWords ts) := by
  rw [flowWords, List.filterMap_eq_flatMap_toList]
  exact tracked_foldl (R := fun s ws => (State.part .flow s).Tracks ws)
    (fun t _ h => h.step t) (.start advice)

section

variable (ts : List Token) (advice : Option Advice)

theorem flow_run_eq_direction :
    (run ⟨.auto, ts, advice⟩).flow = direction (flowWords ts) :=
  (tracks_run ts advice).flow

theorem holdsWrap_run :
    (run ⟨.auto, ts, advice⟩).draft.contains .wrap ↔ WrapStands (flowWords ts) := by
  rw [Draft.contains_eq, ← Draft.contains_part (F := families) (g := .flow) _ rfl]
  exact (tracks_run ts advice).wrap

theorem refusals_run : (run ⟨.auto, ts, advice⟩).draft.errors.filter Error.isRefusal =
    eachBefore (fun before w => if IsRefused before w then [.wrapWithoutRow] else []) []
      (flowWords ts) := by
  have within (e : Error) (h : e.isRefusal) : families.ofError e = .flow := by
    cases e with
    | wrapWithoutRow => rfl
    | _ => cases h
  rw [← Draft.filter_errors_part _ within]
  exact (tracks_run ts advice).refusals

theorem removals_run : (run ⟨.auto, ts, advice⟩).draft.noted Warning.isRemoval =
    eachBefore (fun before w => if Removes before w then [.wrapRemoved] else []) []
      (flowWords ts) := by
  have within (w : Warning) (h : w.isRemoval) : families.ofWarning w = .flow := by
    cases w with
    | wrapRemoved => rfl
    | _ => cases h
  rw [← Draft.noted_part _ within]
  exact (tracks_run ts advice).removals

end

/-! ## Wraps that are refused or taken back -/

section

variable {xs : List Token} {t : Token}

theorem flowWords_concat {w : FlowWord} (h : flowWord? t = some w) :
    flowWords (xs ++ [t]) = flowWords xs ++ [w] := by
  rw [flowWords, List.filterMap_append, List.filterMap_cons_some h]
  rfl

/-- A column takes back the wrap that it meets, and says so once. -/
theorem run_column (column : flowWord? t = some .column) (advice : Option Advice)
    (held : (run ⟨.auto, xs, advice⟩).draft.contains .wrap) :
    (run ⟨.auto, xs ++ [t], advice⟩).draft.contains .wrap = false ∧
    (run ⟨.auto, xs ++ [t], advice⟩).draft.noted Warning.isRemoval =
      (run ⟨.auto, xs, advice⟩).draft.noted Warning.isRemoval ++ [.wrapRemoved] := by
  have stands := (holdsWrap_run xs advice).1 held
  constructor
  · rw [Bool.eq_false_iff]
    intro still
    rw [holdsWrap_run, flowWords_concat column, wrapStands_concat] at still
    simp at still
  · rw [removals_run, removals_run, flowWords_concat column, eachBefore_concat,
      if_pos ⟨rfl, stands⟩]

/-- A wrap behind no row is one error; but for that, a flow has been seen, and no more. -/
theorem run_refused (wrap : flowWord? t = some .wrap)
    (other : direction (flowWords xs) ≠ some .row) (advice : Option Advice) :
    run ⟨.auto, xs ++ [t], advice⟩ =
      { run ⟨.auto, xs, advice⟩ with flowSeen := true }.error .wrapWithoutRow := by
  rw [← flow_run_eq_direction xs advice] at other
  rcases ofToken_flow t with ⟨value, entry, word⟩ | ⟨-, none⟩
  · have last : run ⟨.auto, xs ++ [t], advice⟩ = (run ⟨.auto, xs, advice⟩).setFlow value := by
      show (xs ++ [t]).foldl _ _ = _
      rw [List.foldl_concat, State.step, entry]
      rfl
    rw [last, State.setFlow_eq, ← word, wrap]
    exact if_neg other
  · rw [none] at wrap
    cases wrap

/-- The classes of a layout are those that it has without a wrap that stands behind no row. -/
theorem classes_without_refused (wrap : flowWord? t = some .wrap)
    (other : direction (flowWords xs) ≠ some .row) (ys : List Token) (advice : Option Advice) :
    autoClasses (xs ++ t :: ys) advice = autoClasses (xs ++ ys) advice := by
  have refused := run_refused wrap other advice
  have apart : (run ⟨.auto, xs ++ [t], advice⟩).Apart none (run ⟨.auto, xs, advice⟩) := by
    rw [refused]
    exact ⟨rfl, rfl, fun _ => rfl, fun _ => rfl, fun _ => rfl⟩
  have both : (run ⟨.auto, xs ++ t :: ys, advice⟩).Apart none (run ⟨.auto, xs ++ ys, advice⟩) := by
    have later := apart.foldl_step .auto ys
    unfold run at later ⊢
    rw [List.append_cons]
    simpa only [List.foldl_append] using later
  exact both.classes_finish .auto

end

/-! ## Classes -/

theorem eq_wrap_of_spells {k : Concern} (h : k.Spells "flex-wrap") : k = .wrap := by
  have each : ∀ k ∈ Concern.all, k.lead <+: "flex-wrap".toList →
      k = .wrap ∨ k = .display ∨ k = .flow := by decide
  rcases each k k.mem_all h.lead with rfl | rfl | rfl
  · rfl
  · have same : "flex-wrap".toList = "flex".toList := h
    exact absurd same (by decide)
  · have same : "flex-wrap".toList = "flex-row".toList ∨ "flex-wrap".toList = "flex-col".toList := h
    exact absurd same (by decide)

section

variable (ts : List Token) (advice : Option Advice)

theorem get?_autoClasses_of_flow {k : Concern} (own : k.family = .flow) (held : k ≠ .display) :
    (autoClasses ts advice).get? k =
      ((run ⟨.auto, ts, advice⟩).part .flow).draft.classes.get? k := by
  have justify : k ≠ .justify := by
    rintro rfl
    cases own
  have items : k ≠ .items := by
    rintro rfl
    cases own
  rw [autoClasses, State.get?_finish_auto _ held, State.get?_resolveAlignment _ justify items]
  exact (Draft.get?_part _ own).symm

theorem wrap_mem_autoClasses :
    "flex-wrap".toList ∈ (autoClasses ts advice).classes ↔ WrapStands (flowWords ts) := by
  have held : (autoClasses ts advice).contains .wrap ↔ WrapStands (flowWords ts) := by
    rw [← (tracks_run ts advice).wrap, ClassMap.contains,
      get?_autoClasses_of_flow ts advice rfl (by decide)]
    rfl
  rw [← held]
  exact (shaped_autoClasses ts advice).mem_classes_iff_contains
    (fun _ hs => eq_wrap_of_spells hs.2) fun _ hs => hs.2

theorem flow_autoClasses : (autoClasses ts advice).classes.filter (· ∈ flowClasses) =
    (direction (flowWords ts)).toList.map flowClass := by
  have flow := (shaped_autoClasses ts advice).filter_classes_eq (k := .flow)
    (p := fun c => c ∈ flowClasses)
    (fun c hs => by rcases hs.2 with rfl | rfl <;> decide)
    (fun k c hs hc => eq_flow_of_row_or_column hs.2 (by simpa [flowClasses] using hc))
  rw [flow, get?_autoClasses_of_flow ts advice rfl (by decide), (tracks_run ts advice).shown]
  cases direction (flowWords ts) <;> rfl

end

/-! ## Errors and warnings -/

/-- What is said about a wrap that stands behind no row. -/
def wrapRefused : Text := "layout: wrap requires horizontal flow to be set before it"

/-- What is said about a column that takes back a wrap. -/
def wrapTaken : Text := "layout: vertical flow cannot wrap; the earlier wrap was removed"

theorem head?_message_of_not_refusal {e : Error} (h : e.isRefusal = false) :
    e.message.head? ≠ some 'w' := by
  cases e with
  | wrapWithoutRow => cases h
  | autoOnly | standardOnly => exact (by decide : "'".toList.head? ≠ some 'w')
  | missingDimensions | missingWidth | missingHeight | missingFlow => decide
  | _ => exact (by decide : some 'i' ≠ some 'w')

theorem head?_title (k : Superseded) : k.title ≠ [] ∧ k.title.head? ≠ some 'v' := by
  cases k with
  | size d => cases d <;> decide
  | spacing axis => cases axis <;> decide
  | padding kind => cases kind <;> decide
  | _ => decide

theorem head?_message_of_not_removal {w : Warning} (h : w.isRemoval = false) :
    w.message.head? ≠ some 'v' := by
  cases w with
  | wrapRemoved => cases h
  | advice a => cases a <;> decide
  | superseded k =>
    obtain ⟨named, other⟩ := head?_title k
    show (k.title ++ " set more than once; the last value wins".toList).head? ≠ some 'v'
    rwa [List.head?_append_of_ne_nil _ named]
  | unread u => cases u <;> exact (by decide : some 'u' ≠ some 'v')
  | paddingReplaced kind earlier => cases kind <;> exact (by decide : some 'p' ≠ some 'v')
  | unknownPadding | unknownSetting => exact (by decide : some 'u' ≠ some 'v')
  | unsupportedSetting => exact (by decide : some 's' ≠ some 'v')
  | noAlignment | noGap => decide

theorem line_refusal :
    Property.layout.name ++ ": " ++ Error.wrapWithoutRow.message = wrapRefused := by decide

theorem line_removal :
    Property.layout.name ++ ": " ++ Warning.wrapRemoved.message = wrapTaken := by decide

theorem line_eq_wrapRefused_iff (e : Error) :
    Property.layout.name ++ ": " ++ e.message = wrapRefused ↔ e.isRefusal := by
  constructor
  · intro h
    by_contra other
    rw [← line_refusal] at h
    refine head?_message_of_not_refusal (by simpa using other) ?_
    rw [List.append_cancel_left h]
    decide
  · intro h
    cases e with
    | wrapWithoutRow => exact line_refusal
    | _ => cases h

theorem line_eq_wrapTaken_iff (w : Warning) :
    Property.layout.name ++ ": " ++ w.message = wrapTaken ↔ w.isRemoval := by
  constructor
  · intro h
    by_contra other
    rw [← line_removal] at h
    refine head?_message_of_not_removal (by simpa using other) ?_
    rw [List.append_cancel_left h]
    decide
  · intro h
    cases w with
    | wrapRemoved => exact line_removal
    | _ => cases h

section

variable (ts : List Token) (advice : Option Advice)

/-- What is said about the wraps that stand behind no row, one after the other. -/
theorem refusals_reading :
    (Resolution.reading ⟨.auto, ts, advice⟩).report.errors.filter (· = wrapRefused) =
      eachBefore (fun before w => if IsRefused before w then [wrapRefused] else []) []
        (flowWords ts) := by
  have missing (e : Error) (h : e.isMissing) : e.isRefusal = false := by
    cases e with
    | wrapWithoutRow => cases h
    | _ => rfl
  have own (e : Error) :
      decide (Property.layout.name ++ ": " ++ e.message = wrapRefused) = e.isRefusal := by
    rw [Bool.eq_iff_iff, decide_eq_true_iff, line_eq_wrapRefused_iff]
  refine (Draft.filter_errors_report _ .layout Error.message Warning.message own).trans ?_
  rw [State.filter_errors_finish_auto _ missing, refusals_run, map_eachBefore_ite, line_refusal]

/-- What is said about the columns that take back a wrap, one after the other. -/
theorem removals_reading :
    (Resolution.reading ⟨.auto, ts, advice⟩).report.warnings.filter (· = wrapTaken) =
      eachBefore (fun before w => if Removes before w then [wrapTaken] else []) []
        (flowWords ts) := by
  have own (w : Warning) :
      decide (Property.layout.name ++ ": " ++ w.message = wrapTaken) = w.isRemoval := by
    rw [Bool.eq_iff_iff, decide_eq_true_iff, line_eq_wrapTaken_iff]
  refine (Draft.filter_warnings_report _ .layout Error.message Warning.message own).trans ?_
  rw [State.noted_finish_auto _ rfl rfl, removals_run, map_eachBefore_ite, line_removal]

end

/-! ## Readings -/

/-- An Auto layout wraps exactly if a wrap stands behind a row that is the last direction before it,
and no column stands behind the wrap; so it wraps as a row only. A wrap elsewhere is one error and
leaves the classes alone, and a column that meets a wrap takes it back and says so. -/
theorem wrap_behind_row (ts : List Token) (advice : Option Advice) :
    let report := (Resolution.reading ⟨.auto, ts, advice⟩).report
    ("flex-wrap".toList ∈ report.classes ↔ WrapStands (flowWords ts)) ∧
    ("flex-wrap".toList ∈ report.classes →
      "flex-row".toList ∈ report.classes ∧ "flex-col".toList ∉ report.classes) ∧
    report.classes.filter (· ∈ flowClasses) =
      (direction (flowWords ts)).toList.map flowClass ∧
    report.errors.filter (· = wrapRefused) =
      eachBefore (fun before w => if IsRefused before w then [wrapRefused] else []) []
        (flowWords ts) ∧
    report.warnings.filter (· = wrapTaken) =
      eachBefore (fun before w => if Removes before w then [wrapTaken] else []) []
        (flowWords ts) ∧
    (∀ xs t ys, ts = xs ++ t :: ys → flowWord? t = some .wrap →
      direction (flowWords xs) ≠ some .row →
      run ⟨.auto, xs ++ [t], advice⟩ =
        { run ⟨.auto, xs, advice⟩ with flowSeen := true }.error .wrapWithoutRow ∧
      report.classes = (Resolution.reading ⟨.auto, xs ++ ys, advice⟩).report.classes) ∧
    (∀ xs t ys, ts = xs ++ t :: ys → flowWord? t = some .column →
      (run ⟨.auto, xs, advice⟩).draft.contains .wrap →
      (run ⟨.auto, xs ++ [t], advice⟩).draft.contains .wrap = false ∧
      (run ⟨.auto, xs ++ [t], advice⟩).draft.noted Warning.isRemoval =
        (run ⟨.auto, xs, advice⟩).draft.noted Warning.isRemoval ++ [.wrapRemoved]) ∧
    ∀ input, Mode.resolve input = ⟨.auto, ts, advice⟩ →
      read input = Resolution.reading ⟨.auto, ts, advice⟩ := by
  intro report
  have stands : "flex-wrap".toList ∈ report.classes ↔ WrapStands (flowWords ts) :=
    wrap_mem_autoClasses ts advice
  have flow : report.classes.filter (· ∈ flowClasses) =
      (direction (flowWords ts)).toList.map flowClass := flow_autoClasses ts advice
  refine ⟨stands, fun wrap => ?_, flow, refusals_reading ts advice, removals_reading ts advice,
    ?_, fun xs t ys _ column held => run_column column advice held,
    fun input h => by rw [read_eq, h]⟩
  · rw [direction_of_wrapStands (stands.1 wrap)] at flow
    have among {c : Text} (hc : c ∈ flowClasses) :
        c ∈ report.classes ↔ c ∈ ["flex-row".toList] := by
      have kept : c ∈ report.classes.filter (· ∈ flowClasses) ↔ c ∈ report.classes := by
        rw [List.mem_filter, and_iff_left (decide_eq_true hc)]
      rw [← kept, flow]
      rfl
    exact ⟨(among (by decide)).2 (by decide), fun col => absurd ((among (by decide)).1 col)
      (by decide)⟩
  · rintro xs t ys rfl wrap other
    exact ⟨run_refused wrap other advice,
      congrArg ClassMap.classes (classes_without_refused wrap other ys advice)⟩

/-- A wrap in front of a row and one behind it, and a column that takes back the latter. -/
theorem wrap_of_row_and_column :
    let ts : List Token := [.bare "↵", .bare "→", .pair "flow" "wrap"]
    let us : List Token := [.bare "→", .pair "flow" "wrap"]
    let report := (Resolution.reading ⟨.auto, ts, none⟩).report
    let turned := (Resolution.reading ⟨.auto, ts ++ [.pair "flow" "column"], none⟩).report
    "flex-wrap".toList ∈ report.classes ∧ "flex-row".toList ∈ report.classes ∧
    "flex-col".toList ∉ report.classes ∧
    report.errors.filter (· = wrapRefused) = [wrapRefused] ∧
    report.classes = (Resolution.reading ⟨.auto, us, none⟩).report.classes ∧
    "flex-wrap".toList ∉ turned.classes ∧
    turned.classes.filter (· ∈ flowClasses) = ["flex-col".toList] ∧
    turned.warnings.filter (· = wrapTaken) = [wrapTaken] ∧
    (run ⟨.auto, ts ++ [.pair "flow" "column"], none⟩).draft.contains .wrap = false ∧
    Mode.resolve (some "Auto\x7b↵,→,flow=wrap\x7d") = ⟨.auto, ts, none⟩ ∧
    (read (some "Auto\x7b↵,→,flow=wrap\x7d")).report = report := by
  intro ts us report turned
  have words : flowWords ts = [.wrap, .row, .wrap] := by decide
  have further : flowWords (ts ++ [.pair "flow" "column"]) = [.wrap, .row, .wrap, .column] := by
    decide
  have resolved : Mode.resolve (some "Auto\x7b↵,→,flow=wrap\x7d") = ⟨.auto, ts, none⟩ := by decide
  obtain ⟨stands, row, -, refused, -, without, -, tie⟩ := wrap_behind_row ts none
  obtain ⟨stands', -, flow', -, taken', -, column', -⟩ :=
    wrap_behind_row (ts ++ [.pair "flow" "column"]) none
  rw [words] at stands refused
  rw [further] at stands' flow' taken'
  have wraps : "flex-wrap".toList ∈ report.classes := stands.2 (by decide)
  have held : (run ⟨.auto, ts, none⟩).draft.contains .wrap := by decide
  exact ⟨wraps, (row wraps).1, (row wraps).2, refused.trans (by decide),
    (without [] _ _ rfl (by decide) (by decide)).2, fun wrap => absurd (stands'.1 wrap) (by decide),
    flow'.trans (by decide), taken'.trans (by decide), (column' ts _ [] rfl (by decide) held).1,
    resolved, congrArg Reading.report (tie _ resolved)⟩

end Inspector.Layout
