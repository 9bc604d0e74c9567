import Inspector.Proofs.Layout.Run
import Inspector.Proofs.Observation
import Inspector.Proofs.Outcome
import Inspector.Proofs.Token

/-!
# What one token does to a layout

Which classes an entry updates hangs on the mode and, for a wrap alone, on the flow, which a wrap
leaves as it is. A token that is no group has one entry at most, which is refused, or not read, or
taken; and a token that is not known has that one warning.

    (s.apply mode e).draft.classes = s.draft.classes.after (e.updates mode s.flow)
                                                                                 (classes_apply)
    t ∈ tokenize input → Group.strip? t.text = none →
      Outcome view Warning.isUnread (·.step mode t) s
                                                                                  (outcome_step)
-/

namespace Inspector.Layout

open Text

/-- Beside its draft, a layout has a flow, an alignment, a shared gap and a baseline. -/
def view : View State Concern Error Warning (Option Flow × Option Alignment × Bool × Bool) where
  draft := State.draft
  meaning := fun s => (s.flow, s.alignment, s.gapBetween, s.baseline)

/-- The warnings about what could not be read. -/
def Warning.isUnread : Warning → Bool
  | .unread _ | .unknownPadding _ | .unknownSetting _ | .unsupportedSetting _ => true
  | _ => false

/-- A token is not known, or its key. -/
def Unread.isUnknown : Unread → Bool
  | .key _ | .token _ => true
  | _ => false

def Warning.isUnknown : Warning → Bool
  | .unread u => u.isUnknown
  | _ => false

/-! ## Updates -/

/-- What a flow changes in the classes; only a wrap needs another flow before it. -/
def flowUpdates (flow : Option Flow) (value : Text) : List (ClassMap.Update Concern) :=
  let word := lower (trim value)
  if word = "vertical" ∨ word = "column" ∨ word = "↓" then
    [.erase .wrap, .set .flow ["flex-col"]]
  else if word = "horizontal" ∨ word = "row" ∨ word = "→" then [.set .flow ["flex-row"]]
  else if word = "wrap" ∨ word = "↵" then
    if flow = some .row then [.insert .wrap "flex-wrap"] else []
  else []

def gapUpdates (value : Text) : List (ClassMap.Update Concern) :=
  let word := lower (trim value)
  if word = "auto" ∨ word = "space-between" ∨ word = "↔" then [.erase .gap]
  else (Fragment.ofExtent? value).elim [] fun f => [.set .gap ["gap-" ++ f]]

def Padding.Item.updates : Padding.Item → List (ClassMap.Update Concern)
  | .value kind text =>
    (Fragment.ofExtent? text).elim [] fun f =>
      (kind.replaced.map .padding).map .erase ++ [.set (.padding kind) [kind.short ++ "-" ++ f]]
  | .unknown _ => []

def AutoEntry.updates (flow : Option Flow) : AutoEntry → List (ClassMap.Update Concern)
  | .flow value => flowUpdates flow value
  | .gap value => gapUpdates value
  | .padding items => items.flatMap Padding.Item.updates
  | .align _ | .settings _ => []

namespace Entry

/-- What an entry changes in the classes. -/
def updates (mode : Mode) (flow : Option Flow) : Entry → List (ClassMap.Update Concern)
  | .clip on => if on then [.insert .clip "overflow-hidden"] else [.erase .clip]
  | .size _ d value =>
    if d.isBound && mode != .auto then []
    else (Fragment.ofSize? value).elim [] fun f => [.set (.size d) [d.short ++ "-" ++ f]]
  | .spacing _ axis value =>
    if mode = .auto then []
    else (Fragment.ofExtent? value).elim [] fun f => [.set (.spacing axis) [axis.name ++ "-" ++ f]]
  | .auto _ a => if mode = .auto then a.updates flow else []
  | .marker | .unclearClip _ | .unread _ => []

/-- The warning about an entry that is not known. -/
def unknowns : Entry → List Warning
  | .unread u => [Warning.unread u].filter Warning.isUnknown
  | _ => []

/-! ## The entries of a token -/

/-- The entry has one item at most, if it has items. -/
def IsSingle : Entry → Prop
  | .auto _ (.settings items) => items.length ≤ 1
  | .auto _ (.padding items) => items.length ≤ 1
  | _ => True

/-- A token has one entry, or it lists dimensions. -/
theorem ofToken_cases (t : Token) :
    (∃ e, ofToken t = [e]) ∨ ∃ ts : List Token, ofToken t = ts.map ofDimensionItem := by
  cases t with
  | bare text => exact .inl ⟨_, rfl⟩
  | pair key value =>
    have branch {c : Prop} [Decidable c] {e : Entry} {es : List Entry} (h : ∃ e, es = [e]) :
        ∃ e', (if c then [e] else es) = [e'] :=
      iteInduction (motive := fun es => ∃ e, es = [e]) (fun _ => ⟨e, rfl⟩) fun _ => h
    unfold ofToken ofPair
    dsimp only
    by_cases hm : lower key = "mode"
    · exact .inl ⟨_, if_pos hm⟩
    · rw [if_neg hm]
      by_cases hd : lower key = "dimensions" ∨ lower key = "size"
      · exact .inr ⟨_, if_pos hd⟩
      · rw [if_neg hd]
        exact .inl (branch (branch (branch (branch (branch (branch (branch ⟨_, rfl⟩)))))))

theorem unknowns_ofDimensionItem (t : Token) : (ofDimensionItem t).unknowns = [] := by
  unfold ofDimensionItem
  dsimp only
  split <;> rfl

/-- An entry that is not known is the only one of its token. -/
theorem ofToken_of_unknowns {t : Token} {e : Entry} (he : e ∈ ofToken t) (h : e.unknowns ≠ []) :
    ofToken t = [e] := by
  rcases ofToken_cases t with ⟨e', h'⟩ | ⟨ts, h'⟩
  · rw [h', List.mem_singleton] at he
    rw [h', he]
  · rw [h'] at he
    obtain ⟨i, -, rfl⟩ := List.mem_map.1 he
    exact absurd (unknowns_ofDimensionItem i) h

theorem items_of_plain {kind : Padding} {value : Text} (h : Group.strip? value = none) :
    kind.items value = [.value kind value] := by
  rw [Padding.items]
  split
  · rfl
  · next inner h' =>
    rw [h] at h'
    cases h'

theorem isSingle_ofBare (text : Text) : (ofBare text).IsSingle := by
  simp only [ofBare]
  split_ifs
  · exact True.intro
  · exact True.intro
  · exact True.intro
  · exact True.intro
  · split
    · exact Nat.le_refl 1
    · exact True.intro
    · exact True.intro
    · exact True.intro

theorem isSingle_ofNamed {value : Text} (plain : Group.strip? value = none) (t : Token)
    (key : Text) : (ofNamed t key value).IsSingle := by
  unfold ofNamed
  split
  · exact Nat.le_refl 1
  · rw [items_of_plain plain]
    exact Nat.le_refl 1
  · exact True.intro
  · exact True.intro

theorem isSingle_ofMode (value : Text) : (ofMode value).IsSingle := by
  unfold ofMode
  split <;> exact True.intro

theorem isSingle_ofClip (value : Text) : (ofClip value).IsSingle := by
  unfold ofClip
  split <;> exact True.intro

theorem isSingle_ofDimensionItem (t : Token) : (ofDimensionItem t).IsSingle := by
  unfold ofDimensionItem
  dsimp only
  split <;> exact True.intro

/-- One entry at most, with no more than one item. -/
def AreSingle (es : List Entry) : Prop := es.length ≤ 1 ∧ ∀ e ∈ es, e.IsSingle

theorem AreSingle.intro {e : Entry} (h : e.IsSingle) : AreSingle [e] :=
  ⟨Nat.le_refl 1, fun _ he => List.mem_singleton.1 he ▸ h⟩

theorem AreSingle.ite {c : Prop} [Decidable c] {es es' : List Entry} (h : AreSingle es)
    (h' : AreSingle es') : AreSingle (if c then es else es') :=
  iteInduction (motive := AreSingle) (fun _ => h) fun _ => h'

theorem areSingle_ofToken {input : Text} {t : Token} (ht : t ∈ tokenize input)
    (plain : Group.strip? t.text = none) : AreSingle (ofToken t) := by
  cases t with
  | bare text => exact .intro (isSingle_ofBare text)
  | pair key value =>
    have plain : Group.strip? value = none := plain
    have items : (tokenize (unwrapped value)).length ≤ 1 := by
      rw [unwrapped, plain, Option.getD_none]
      rcases tokenize_of_mem_pair ht with h | h <;> simp [h]
    have dimensions : AreSingle ((tokenize (unwrapped value)).map ofDimensionItem) := by
      refine ⟨(List.length_map _).trans_le items, fun e he => ?_⟩
      obtain ⟨i, -, rfl⟩ := List.mem_map.1 he
      exact isSingle_ofDimensionItem i
    have settings : ((tokenize (unwrapped value)).map Setting.ofToken).length ≤ 1 :=
      (List.length_map _).trans_le items
    exact .ite (.intro (isSingle_ofMode value)) (.ite dimensions
      (.ite (.intro (isSingle_ofClip value)) (.ite (.intro True.intro) (.ite (.intro True.intro)
        (.ite (.intro True.intro) (.ite (.intro True.intro) (.ite (.intro True.intro)
          (.ite (.intro settings) (.intro (isSingle_ofNamed plain _ _))))))))))

end Entry

namespace State

variable (s : State)

/-! ## Classes -/

theorem classes_setSize (d : Dimension) (value : Text) :
    (s.setSize d value).draft.classes = s.draft.classes.after
      ((Fragment.ofSize? value).elim [] fun f => [.set (.size d) [d.short ++ "-" ++ f]]) := by
  simp only [setSize]
  cases Fragment.ofSize? value with
  | none =>
    show (s.see d).draft.classes = _
    rw [draft_see]
    rfl
  | some f =>
    show ((s.see d).draft.put _ _ _).classes = _
    rw [Draft.classes_put, draft_see]
    rfl

theorem classes_setFlow (value : Text) :
    (s.setFlow value).draft.classes = s.draft.classes.after (flowUpdates s.flow value) := by
  unfold setFlow flowUpdates
  dsimp only
  split
  · show ((s.draft.discard _ _).put _ _ _).classes = _
    rw [Draft.classes_put, Draft.classes_discard]
    rfl
  · split
    · exact Draft.classes_put _ _ _ _
    · split
      · unfold setWrap
        split <;> rfl
      · rfl

theorem classes_setAlignment (value : Text) :
    (s.setAlignment value).draft.classes = s.draft.classes := by
  unfold setAlignment
  dsimp only
  split
  · split <;> rfl
  · rfl

theorem classes_setGap (value : Text) :
    (s.setGap value).draft.classes = s.draft.classes.after (gapUpdates value) := by
  unfold setGap gapUpdates
  dsimp only
  split
  · rfl
  · cases Fragment.ofExtent? value with
    | none => rfl
    | some f => exact Draft.classes_put _ _ _ _

theorem classes_setPadding (i : Padding.Item) :
    (s.setPadding i).draft.classes = s.draft.classes.after i.updates := by
  cases i with
  | value kind value =>
    simp only [setPadding, Padding.Item.updates]
    cases Fragment.ofExtent? value with
    | none => rfl
    | some f =>
      show ((s.replacePadding kind).draft.put _ _ _).classes = _
      rw [Draft.classes_put, classes_replacePadding, Option.elim_some, ClassMap.after_concat,
        ClassMap.after_erases]
      rfl
  | unknown token => rfl

theorem classes_setSetting (i : Setting) : (s.setSetting i).draft.classes = s.draft.classes := by
  unfold setSetting
  split
  · split <;> rfl
  · rfl
  · rfl

theorem classes_apply (mode : Mode) (e : Entry) :
    (s.apply mode e).draft.classes = s.draft.classes.after (e.updates mode s.flow) := by
  cases e with
  | marker => rfl
  | clip on => cases on <;> rfl
  | unclearClip value => rfl
  | size token d value =>
    simp only [apply, Entry.updates]
    split
    · rfl
    · exact s.classes_setSize d value
  | spacing token axis value =>
    simp only [apply, setSpacing, Entry.updates]
    split
    · rfl
    · cases Fragment.ofExtent? value with
      | none => rfl
      | some f => exact Draft.classes_put _ _ _ _
  | auto token a =>
    simp only [apply, Entry.updates]
    split
    · cases a with
      | flow value => exact s.classes_setFlow value
      | align value => exact s.classes_setAlignment value
      | gap value => exact s.classes_setGap value
      | settings items =>
        exact kept_foldl (fun s : State => s.draft.classes) classes_setSetting items s
      | padding items =>
        exact ClassMap.after_foldl (fun s : State => s.draft.classes) classes_setPadding items s
    · rfl
  | unread u => rfl

theorem flow_setWrap : s.setWrap.flow = s.flow := by
  unfold setWrap
  split <;> rfl

/-- An entry that changes the flow updates the same classes after any flow. -/
theorem updates_flow_apply (mode : Mode) (e : Entry) :
    e.updates mode (s.apply mode e).flow = e.updates mode s.flow := by
  cases e with
  | auto token a =>
    cases a with
    | flow value =>
      simp only [apply, applyAuto, Entry.updates, AutoEntry.updates]
      split
      · unfold flowUpdates setFlow
        dsimp only
        split
        · rfl
        · split
          · rfl
          · split
            · rw [flow_setWrap]
            · rfl
      · rfl
    | _ => rfl
  | _ => rfl

theorem classes_step_step (mode : Mode) (t : Token) :
    ((s.step mode t).step mode t).draft.classes = (s.step mode t).draft.classes := by
  rcases Entry.ofToken_cases t with ⟨e, he⟩ | ⟨ts, hts⟩
  · have step (s : State) : s.step mode t = s.apply mode e := by
      rw [State.step, he]
      rfl
    rw [step, step, classes_apply, updates_flow_apply, classes_apply, ClassMap.after_after]
  · -- Dimensions have nothing to do with the flow.
    have updates (s : State) : (s.step mode t).draft.classes =
        s.draft.classes.after
          (ts.flatMap fun i => (Entry.ofDimensionItem i).updates mode none) := by
      rw [State.step, hts, List.foldl_map]
      refine ClassMap.after_foldl (fun s : State => s.draft.classes) (fun s i => ?_) ts s
      rw [classes_apply]
      unfold Entry.ofDimensionItem
      dsimp only
      split <;> rfl
    rw [updates, updates, ClassMap.after_after]

/-! ## Warnings -/

theorem noted_setSize (d : Dimension) (value : Text) :
    (s.setSize d value).draft.noted Warning.isUnknown = s.draft.noted Warning.isUnknown := by
  unfold setSize
  dsimp only
  split
  · exact (Draft.noted_put _ _ _ rfl).trans (by rw [draft_see])
  · exact (Draft.noted_error _ _).trans (by rw [draft_see])

theorem noted_setFlow (value : Text) :
    (s.setFlow value).draft.noted Warning.isUnknown = s.draft.noted Warning.isUnknown := by
  unfold setFlow
  dsimp only
  split
  · exact (Draft.noted_put _ _ _ rfl).trans (Draft.noted_discard _ _ rfl)
  · split
    · exact Draft.noted_put _ _ _ rfl
    · split
      · unfold setWrap
        split <;> rfl
      · rfl

theorem noted_setAlignment (value : Text) :
    (s.setAlignment value).draft.noted Warning.isUnknown = s.draft.noted Warning.isUnknown := by
  unfold setAlignment
  dsimp only
  split
  · split
    · exact Draft.noted_warn_of_neg _ rfl
    · rfl
  · rfl

theorem noted_setGap (value : Text) :
    (s.setGap value).draft.noted Warning.isUnknown = s.draft.noted Warning.isUnknown := by
  unfold setGap
  dsimp only
  split
  · rfl
  · split
    · exact Draft.noted_put _ _ _ rfl
    · rfl

theorem noted_replacePadding {p : Warning → Bool} {kind : Padding}
    (h : ∀ k, p (.paddingReplaced kind k) = false) :
    (s.replacePadding kind).draft.noted p = s.draft.noted p := by
  unfold replacePadding
  dsimp only
  split
  · rfl
  · exact kept_foldl (Draft.noted p) (fun d k => d.noted_discard (.padding k) (h k)) kind.replaced
      s.draft

theorem noted_setPadding (i : Padding.Item) :
    (s.setPadding i).draft.noted Warning.isUnknown = s.draft.noted Warning.isUnknown := by
  unfold setPadding
  split
  · split
    · exact (Draft.noted_put _ _ _ rfl).trans (s.noted_replacePadding fun _ => rfl)
    · rfl
  · exact Draft.noted_warn_of_neg _ rfl

theorem noted_setSetting (i : Setting) :
    (s.setSetting i).draft.noted Warning.isUnknown = s.draft.noted Warning.isUnknown := by
  unfold setSetting
  split
  · split <;> rfl
  · exact Draft.noted_warn_of_neg _ rfl
  · exact Draft.noted_warn_of_neg _ rfl

theorem noted_applyAuto (a : AutoEntry) :
    (s.applyAuto a).draft.noted Warning.isUnknown = s.draft.noted Warning.isUnknown := by
  cases a with
  | flow value => exact s.noted_setFlow value
  | align value => exact s.noted_setAlignment value
  | gap value => exact s.noted_setGap value
  | settings items =>
    exact kept_foldl (fun s : State => s.draft.noted Warning.isUnknown) noted_setSetting items s
  | padding items =>
    exact kept_foldl (fun s : State => s.draft.noted Warning.isUnknown) noted_setPadding items s

theorem noted_apply (mode : Mode) (e : Entry) : (s.apply mode e).draft.noted Warning.isUnknown =
    s.draft.noted Warning.isUnknown ++ e.unknowns := by
  cases e with
  | marker => exact (List.append_nil _).symm
  | clip on =>
    cases on <;> exact (List.append_nil _).symm
  | unclearClip value => exact (List.append_nil _).symm
  | size token d value =>
    simp only [apply, Entry.unknowns, List.append_nil]
    split
    · rfl
    · exact s.noted_setSize d value
  | spacing token axis value =>
    simp only [apply, setSpacing, Entry.unknowns, List.append_nil]
    split
    · rfl
    · split
      · exact Draft.noted_put _ _ _ rfl
      · rfl
  | auto token a =>
    simp only [apply, Entry.unknowns, List.append_nil]
    split
    · exact s.noted_applyAuto a
    · rfl
  | unread u => exact Draft.noted_warn _ _

/-- An entry that is not known has that one warning. -/
theorem apply_of_unknowns (mode : Mode) {e : Entry} (h : e.unknowns ≠ []) :
    ∃ w, Warning.isUnknown w ∧ s.apply mode e = s.warn w := by
  cases e with
  | unread u =>
    refine ⟨.unread u, ?_, rfl⟩
    by_contra hw
    exact h (by simp [Entry.unknowns, hw])
  | _ => exact absurd rfl h

/-- A token that is not known has that one warning and changes nothing else. -/
theorem notedAlone_step (mode : Mode) (t : Token) :
    view.NotedAlone Warning.isUnknown warn s (s.step mode t) :=
  View.notedAlone_foldl (fun s e => s.noted_apply mode e)
    (fun _ he hu => Entry.ofToken_of_unknowns he hu) fun _ hu => s.apply_of_unknowns mode hu

/-! ## Outcomes -/

theorem put_put (k : Concern) (c : Text) (again : Superseded) :
    (s.put k c again).put k c again = s.put k c again :=
  congrArg (fun d => { s with draft := d }) (Draft.put_put _ _ _ _ _)

theorem see_put_see (d : Dimension) (k : Concern) (c : Text) (again : Superseded) :
    ((s.see d).put k c again).see d = (s.see d).put k c again := by
  cases d <;> rfl

theorem meaning_see (d : Dimension) : view.meaning (s.see d) = view.meaning s := by
  cases d <;> rfl

theorem outcome_setSize (d : Dimension) (value : Text) :
    Outcome view Warning.isUnread (·.setSize d value) s := by
  cases h : Fragment.ofSize? value with
  | none =>
    exact .refused_of_eq ((s.see d).error (.invalidSize d value)) (by simp only [setSize, h])
      (congrArg (·.error (.invalidSize d value)) (s.draft_see d)) (s.meaning_see d)
  | some f =>
    refine .settled ?_ ?_
    · simp only [view, setSize, h]
      exact (Draft.errors_put _ _ _ _).trans (by rw [draft_see])
    · simp only [setSize, h, see_put_see, put_put]

theorem outcome_setSpacing (axis : Spacing) (value : Text) :
    Outcome view Warning.isUnread (·.setSpacing axis value) s := by
  cases h : Fragment.ofExtent? value with
  | none =>
    exact .refused_of_eq (s.error (.invalidSpacing axis value)) (by simp only [setSpacing, h]) rfl
      rfl
  | some f =>
    refine .settled ?_ ?_
    · simp only [view, setSpacing, h]
      exact Draft.errors_put _ _ _ _
    · simp only [setSpacing, h, put_put]

theorem outcome_setFlow (value : Text) : Outcome view Warning.isUnread (·.setFlow value) s := by
  by_cases column : lower (trim value) = "vertical" ∨ lower (trim value) = "column" ∨
      lower (trim value) = "↓"
  · have step (s : State) : s.setFlow value =
        { s with
          draft := (s.draft.discard .wrap .wrapRemoved).put .flow ["flex-col"] (.superseded .flow)
          flowSeen := true, flow := some .column } := if_pos column
    refine .settled ?_ ?_
    · simp only [view, step, Draft.errors_put, Draft.errors_discard]
    · simp only [step]
      rw [Draft.discard_put_again _ (by decide)]
  · by_cases row : lower (trim value) = "horizontal" ∨ lower (trim value) = "row" ∨
        lower (trim value) = "→"
    · have step (s : State) : s.setFlow value =
          { s with
            draft := s.draft.put .flow ["flex-row"] (.superseded .flow)
            flowSeen := true, flow := some .row } := (if_neg column).trans (if_pos row)
      refine .settled ?_ ?_
      · simp only [view, step, Draft.errors_put]
      · simp only [step, Draft.put_put]
    · by_cases wrap : lower (trim value) = "wrap" ∨ lower (trim value) = "↵"
      · have step (s : State) : s.setFlow value = ({ s with flowSeen := true } : State).setWrap :=
          (if_neg column).trans ((if_neg row).trans (if_pos wrap))
        by_cases hrow : s.flow = some .row
        · have wrapped (s : State) (h : s.flow = some .row) :
              s.setFlow value =
                { s with draft := s.draft.insert .wrap "flex-wrap", flowSeen := true } :=
            (step s).trans (if_pos h)
          let after : State :=
            { s with draft := s.draft.insert .wrap "flex-wrap", flowSeen := true }
          have again : { after with draft := after.draft.insert .wrap "flex-wrap" } = after :=
            congrArg (fun d => { after with draft := d }) (Draft.insert_insert _ _ _)
          refine .settled ?_ ?_
          · simp only [view, wrapped s hrow, Draft.errors_insert]
          · simp only [wrapped s hrow]
            exact (wrapped after hrow).trans again
        · exact .refused_of_eq (({ s with flowSeen := true } : State).error .wrapWithoutRow)
            ((step s).trans (if_neg hrow)) rfl rfl
      · exact .refused_of_eq (({ s with flowSeen := true } : State).error (.invalidFlow value))
          ((if_neg column).trans ((if_neg row).trans (if_neg wrap))) rfl rfl

theorem outcome_setAlignment (value : Text) :
    Outcome view Warning.isUnread (·.setAlignment value) s := by
  let seen : State := { s with alignmentSeen := true }
  cases h : Alignment.ofText? value with
  | none =>
    exact .refused_of_eq (seen.error (.invalidAlignment value)) (by rw [setAlignment, h]) rfl rfl
  | some a =>
    have aligned (s : State) (ha : s.alignment = some a) (hs : s.alignmentSeen = true) :
        s.setAlignment value = s := by
      have same : s.alignment.any (· != a) = false := by simp [ha]
      simp only [setAlignment, h, same, Bool.false_eq_true, if_false]
      rw [← ha, ← hs]
    refine .settled ?_ (aligned _ ?_ ?_)
    · simp only [view, setAlignment, h]
      split <;> rfl
    · simp only [setAlignment, h]
    · simp only [setAlignment, h]
      split <;> rfl

theorem outcome_setGap (value : Text) : Outcome view Warning.isUnread (·.setGap value) s := by
  by_cases between : lower (trim value) = "auto" ∨ lower (trim value) = "space-between" ∨
      lower (trim value) = "↔"
  · have step (s : State) : s.setGap value =
        { s with draft := s.draft.erase .gap, gapSeen := true, gapBetween := true } :=
      if_pos between
    refine .settled ?_ ?_
    · simp only [view, step, Draft.errors_erase]
    · simp only [step, Draft.erase_erase]
  · cases h : Fragment.ofExtent? value with
    | none =>
      refine .refused_of_eq (({ s with gapSeen := true } : State).error (.invalidGap value)) ?_
        rfl rfl
      simp only [setGap, if_neg between, h]
    | some f =>
      have step (s : State) : s.setGap value =
          { s with
            draft := s.draft.put .gap ["gap-" ++ f] (.superseded .gap)
            gapSeen := true, gapBetween := false } := by
        simp only [setGap, if_neg between, h]
        rfl
      refine .settled ?_ ?_
      · simp only [view, step, Draft.errors_put]
      · simp only [step, Draft.put_put]

theorem replacePadding_of_not_contains {kind : Padding}
    (h : ∀ k ∈ kind.replaced, s.draft.classes.contains (.padding k) = false) :
    s.replacePadding kind = s := by
  have all : s.draft.eraseAll (kind.replaced.map .padding) = s.draft := by
    refine Draft.eraseAll_of_not_contains _ fun c hc => ?_
    obtain ⟨k, hk, rfl⟩ := List.mem_map.1 hc
    exact h k hk
  have each : kind.replaced.foldl
      (fun d k => d.discard (.padding k) (.paddingReplaced kind k)) s.draft = s.draft := by
    generalize kind.replaced = ks at h
    induction ks with
    | nil => rfl
    | cons k ks ih =>
      obtain ⟨hk, hks⟩ := List.forall_mem_cons.1 h
      rw [List.foldl_cons, Draft.discard_of_not_contains _ hk, ih hks]
  unfold replacePadding
  dsimp only
  split
  · rw [all]
  · rw [each]

theorem outcome_setPadding (i : Padding.Item) :
    Outcome view Warning.isUnread (·.setPadding i) s := by
  cases i with
  | value kind value =>
    cases h : Fragment.ofExtent? value with
    | none =>
      exact .refused_of_eq (s.error (.invalidPadding kind value)) (by simp only [setPadding, h]) rfl
        rfl
    | some f =>
      have step (s : State) : s.setPadding (.value kind value) =
          (s.replacePadding kind).put (.padding kind) (kind.short ++ "-" ++ f) (.padding kind) := by
        simp only [setPadding, h]
      have none : ∀ k ∈ kind.replaced,
          (s.setPadding (.value kind value)).draft.classes.contains (.padding k) = false := by
        intro k hk
        have other : k ≠ kind := by
          rintro rfl
          cases k <;> simp [Padding.replaced] at hk
        rw [step]
        show (Draft.put _ _ _ _).classes.contains _ = false
        simp [other, hk]
      refine .settled ?_ ?_
      · simp only [view, step]
        exact (Draft.errors_put _ _ _ _).trans (s.errors_replacePadding kind)
      · show (s.setPadding (.value kind value)).setPadding (.value kind value) = _
        rw [step (s.setPadding _), replacePadding_of_not_contains _ none, step, put_put]
  | unknown token => exact .unread (.unknownPadding token) rfl rfl

theorem outcome_setSetting (i : Setting) : Outcome view Warning.isUnread (·.setSetting i) s := by
  cases i with
  | baseline name value =>
    cases h : value.elim (some true) toggle? with
    | none =>
      exact .refused_of_eq (s.error (.invalidSetting name (value.getD [])))
        (by simp only [setSetting, h]) rfl rfl
    | some on => exact .settled (by simp only [view, setSetting, h]) (by simp only [setSetting, h])
  | unsupported name => exact .unread (.unsupportedSetting name) rfl rfl
  | unknown token => exact .unread (.unknownSetting token) rfl rfl

theorem outcome_applyAuto {token : Token} {a : AutoEntry} (single : (Entry.auto token a).IsSingle) :
    Outcome view Warning.isUnread (·.applyAuto a) s := by
  cases a with
  | flow value => exact s.outcome_setFlow value
  | align value => exact s.outcome_setAlignment value
  | gap value => exact s.outcome_setGap value
  | settings items => exact .foldl single fun i _ => s.outcome_setSetting i
  | padding items => exact .foldl single fun i _ => s.outcome_setPadding i

theorem outcome_apply (mode : Mode) {e : Entry} (single : e.IsSingle) :
    Outcome view Warning.isUnread (·.apply mode e) s := by
  cases e with
  | marker => exact .unchanged rfl
  | clip on =>
    cases on with
    | true =>
      refine .settled rfl ?_
      exact congrArg (fun d => { s with draft := d }) (Draft.insert_insert _ _ _)
    | false =>
      refine .settled rfl ?_
      exact congrArg (fun d => { s with draft := d }) (Draft.erase_erase _ _)
  | unclearClip value => exact .refused (.invalidClip value) rfl rfl
  | size token d value =>
    by_cases bound : d.isBound && mode != .auto
    · exact .refused_of_eq (s.error (.autoOnly token)) (if_pos bound) rfl rfl
    · exact (s.outcome_setSize d value).congr rfl rfl (if_neg bound) (if_neg bound)
  | spacing token axis value =>
    by_cases hm : mode = .auto
    · exact .refused_of_eq (s.error (.standardOnly token)) (if_pos hm) rfl rfl
    · exact (s.outcome_setSpacing axis value).congr rfl rfl (if_neg hm) (if_neg hm)
  | auto token a =>
    by_cases hm : mode = .auto
    · exact (s.outcome_applyAuto single).congr rfl rfl (if_pos hm) (if_pos hm)
    · exact .refused_of_eq (s.error (.autoOnly token)) (if_neg hm) rfl rfl
  | unread u => exact .unread (.unread u) rfl rfl

theorem outcome_step (mode : Mode) {input : Text} {t : Token} (ht : t ∈ tokenize input)
    (plain : Group.strip? t.text = none) : Outcome view Warning.isUnread (·.step mode t) s := by
  obtain ⟨one, single⟩ := Entry.areSingle_ofToken ht plain
  exact .foldl one fun e he => s.outcome_apply mode (single e he)

end State

end Inspector.Layout
