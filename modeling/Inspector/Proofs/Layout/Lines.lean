import Inspector.Layout
import Inspector.Proofs.Draft.Lines

/-!
# Problems of a layout, on one line each

The errors and warnings of a layout quote keys, values and whole tokens as they are written, those
inside a wrapper and inside the groups of dimensions, settings and paddings as well. A layout on one
line has none that breaks.

    t.IsLine → e ∈ Entry.ofToken t → e.IsLine                                   (isLine_ofToken)
    IsLine s → t ∈ (Mode.resolve (some s)).tokens → t.IsLine                     (isLine_resolve)
    IsLine s → (read (some s)).report.InLines                                     (inLines_read)
-/

namespace Inspector.Layout

open Text

def Setting.IsLine : Setting → Prop
  | .baseline name value => Text.IsLine name ∧ ∀ v ∈ value, Text.IsLine v
  | .unsupported name => Text.IsLine name
  | .unknown token => token.IsLine

def Padding.Item.IsLine : Padding.Item → Prop
  | .value _ text => Text.IsLine text
  | .unknown token => token.IsLine

def AutoEntry.IsLine : AutoEntry → Prop
  | .flow value | .align value | .gap value => Text.IsLine value
  | .settings items => ∀ i ∈ items, i.IsLine
  | .padding items => ∀ i ∈ items, i.IsLine

/-- What the entry may have quoted stands on one line. -/
def Entry.IsLine : Entry → Prop
  | .marker | .clip _ => True
  | .unclearClip value => Text.IsLine value
  | .size token _ value | .spacing token _ value => token.IsLine ∧ Text.IsLine value
  | .auto token a => token.IsLine ∧ a.IsLine
  | .unread u => Text.IsLine u.message

/-! ## Items -/

theorem Setting.isLine_ofName? {name : Text} {value : Option Text} {s : Setting}
    (hn : Text.IsLine name) (hv : ∀ v ∈ value, Text.IsLine v) (h : ofName? name value = some s) :
    s.IsLine := by
  unfold ofName? at h
  split_ifs at h
  · obtain rfl := Option.some.inj h
    exact ⟨hn, hv⟩
  · obtain rfl := Option.some.inj h
    exact hn

theorem Setting.isLine_ofToken {t : Token} (h : t.IsLine) : (ofToken t).IsLine := by
  cases t with
  | bare text =>
    simp only [ofToken]
    cases hs : ofName? (lower text) none with
    | none => exact h
    | some s => exact isLine_ofName? (isLine_lower h) (by simp) hs
  | pair key value =>
    have given : ∀ v ∈ some value, Text.IsLine v := fun v hv => Option.some.inj hv ▸ h.2
    simp only [ofToken]
    cases hs : ofName? (lower key) (some value) with
    | none => exact h
    | some s => exact isLine_ofName? (isLine_lower h.1) given hs

theorem Dimension.isLine_ofItem? {item value : Text} {d : Dimension} (h : Text.IsLine item)
    (hi : ofItem? item = some (d, value)) : Text.IsLine value := by
  obtain ⟨_, _, named⟩ := List.exists_of_findSome?_eq_some hi
  obtain ⟨rest, hrest, heq⟩ := Option.map_eq_some_iff.1 named
  cases heq
  exact isLine_of_afterWord? h hrest

/-- The leaves of a padding on one line stand on one line each, however deep its groups are. -/
theorem Padding.isLine_items {kind : Padding} {value : Text} (h : Text.IsLine value) :
    ∀ i ∈ kind.items value, i.IsLine := by
  induction hn : value.length using Nat.strongRecOn generalizing kind value with
  | _ n ih =>
    intro i hi
    rw [items] at hi
    split at hi
    · exact List.mem_singleton.1 hi ▸ h
    · next inner hs =>
      obtain ⟨⟨t, ht⟩, -, hi⟩ := List.mem_flatMap.1 hi
      have line : t.IsLine := isLine_tokenize (Group.isLine_strip? h hs) ht
      dsimp only at hi
      split at hi
      · next k text hg =>
        have same : t.text = text := text_of_given hg
        have shorter : text.length < n := by
          have h1 := Group.length_strip? hs
          have h2 := length_text_of_mem_tokenize ht
          rw [same] at h2
          omega
        exact ih _ shorter (same ▸ line.text) rfl i hi
      · exact List.mem_singleton.1 hi ▸ line

/-! ## Entries -/

namespace Entry

theorem isLine_ofDimensionItem {t : Token} (h : t.IsLine) : (ofDimensionItem t).IsLine := by
  have unread : Text.IsLine (Unread.dimension t).message :=
    isLine_quoted (by decide) h.written (by decide)
  unfold ofDimensionItem
  dsimp only
  split
  · next d value hi =>
    cases t with
    | bare text => exact ⟨h, Dimension.isLine_ofItem? h hi⟩
    | pair key v =>
      obtain ⟨_, -, heq⟩ := Option.map_eq_some_iff.1 hi
      cases heq
      exact ⟨h, h.2⟩
  · exact unread

theorem isLine_ofBare {text : Text} (h : Text.IsLine text) : (ofBare text).IsLine := by
  have word := isLine_lower h
  unfold ofBare
  dsimp only
  split_ifs
  · exact True.intro
  · exact True.intro
  · exact ⟨h, word⟩
  · exact ⟨h, (by decide : Text.IsLine "auto")⟩
  · split
    · next hs => exact ⟨h, List.forall_mem_singleton.2 (Setting.isLine_ofName? word (by simp) hs)⟩
    · exact ⟨h, h⟩
    · next hi => exact ⟨h, Dimension.isLine_ofItem? h hi⟩
    · exact isLine_quoted (by decide) h (by decide)

theorem isLine_ofNamed {t : Token} (ht : t.IsLine) {key value : Text} (hk : Text.IsLine key)
    (hv : Text.IsLine value) : (ofNamed t key value).IsLine := by
  have given : ∀ v ∈ some value, Text.IsLine v := fun v h => Option.some.inj h ▸ hv
  unfold ofNamed
  split
  · next hs => exact ⟨ht, List.forall_mem_singleton.2 (Setting.isLine_ofName? hk given hs)⟩
  · exact ⟨ht, Padding.isLine_items hv⟩
  · exact ⟨ht, hv⟩
  · exact isLine_quoted (by decide) hk (by decide)

theorem isLine_ofMode {value : Text} (h : Text.IsLine value) : (ofMode value).IsLine := by
  unfold ofMode
  split
  · exact True.intro
  · exact isLine_quoted (by decide) h (by decide)

theorem isLine_ofClip {value : Text} (h : Text.IsLine value) : (ofClip value).IsLine := by
  unfold ofClip
  split
  · exact True.intro
  · exact h

theorem isLine_ofPair {t : Token} (ht : t.IsLine) {key value : Text} (hk : Text.IsLine key)
    (hv : Text.IsLine value) : ∀ e ∈ ofPair t key value, e.IsLine := by
  have single {e : Entry} (he : e.IsLine) : ∀ e' ∈ [e], e'.IsLine := List.forall_mem_singleton.2 he
  have item {i : Token} (hi : i ∈ tokenize (unwrapped value)) : i.IsLine :=
    isLine_tokenize (Group.isLine_unwrapped hv) hi
  -- One branch after the other; taken all at once, each condition is simplified in each branch.
  have branch {c : Prop} [Decidable c] {es es' : List Entry} (h : ∀ e ∈ es, e.IsLine)
      (h' : ∀ e ∈ es', e.IsLine) : ∀ e ∈ if c then es else es', e.IsLine :=
    iteInduction (motive := fun es : List Entry => ∀ e ∈ es, e.IsLine) (fun _ => h) fun _ => h'
  unfold ofPair
  refine branch (single (isLine_ofMode hv)) ?_
  refine branch (List.forall_mem_map.2 fun i hi => isLine_ofDimensionItem (item hi)) ?_
  refine branch (single (isLine_ofClip hv)) ?_
  refine branch (single ⟨ht, hv⟩) ?_
  refine branch (single ⟨ht, hv⟩) ?_
  refine branch (single ⟨ht, hv⟩) ?_
  refine branch (single ⟨ht, hv⟩) ?_
  refine branch (single ⟨ht, hv⟩) ?_
  refine branch
    (single ⟨ht, List.forall_mem_map.2 fun i hi => Setting.isLine_ofToken (item hi)⟩) ?_
  exact single (isLine_ofNamed ht hk hv)

theorem isLine_ofToken {t : Token} (h : t.IsLine) : ∀ e ∈ ofToken t, e.IsLine := by
  cases t with
  | bare text => exact List.forall_mem_singleton.2 (isLine_ofBare h)
  | pair key value => exact isLine_ofPair h (isLine_lower h.1) h.2

end Entry

/-! ## Modes -/

theorem Mode.isLine_wrapper? {value inner : Text} {mode : Mode} (h : IsLine value)
    (hw : wrapper? value = some (mode, inner)) : IsLine inner := by
  have named {name inner : Text} (hs : Group.stripNamed? name value = some inner) :
      IsLine inner := by
    obtain ⟨rest, hrest, hs⟩ := Option.bind_eq_some_iff.1 hs
    exact Group.isLine_strip? (isLine_of_afterWord? (isLine_trim h) hrest) hs
  unfold wrapper? at hw
  split at hw
  · next hs =>
    cases hw
    exact named hs
  · next hs =>
    cases hw
    exact named hs
  · cases hw

theorem Mode.isLine_ofTokens {ts : List Token} (h : ∀ t ∈ ts, t.IsLine) :
    ∀ t ∈ (ofTokens ts).tokens, t.IsLine := by
  unfold ofTokens
  split
  · next mode inner hl =>
    obtain ⟨t, ht, hlead⟩ := Option.bind_eq_some_iff.1 hl
    have head : t.IsLine := h t (List.mem_of_mem_head? ht)
    have inside : IsLine inner := by
      cases t with
      | bare text => exact isLine_wrapper? head hlead
      | pair key value => cases hlead
    exact List.forall_mem_append.2
      ⟨fun _ ht => isLine_tokenize inside ht, fun t ht => h t (List.mem_of_mem_tail ht)⟩
  · split_ifs <;> exact h

/-- The tokens that a layout on one line is read by stand on one line each. -/
theorem Mode.isLine_resolve {input : Option Text} (h : ∀ s ∈ input, IsLine s) :
    ∀ t ∈ (resolve input).tokens, t.IsLine := by
  have line : IsLine (trim (input.getD [])) := by
    cases input with
    | none => decide
    | some s => exact isLine_trim (h s rfl)
  unfold resolve
  split
  · exact nofun
  · next c r hcr =>
    rw [hcr] at line
    split
    · next hw => exact fun _ ht => isLine_tokenize (isLine_wrapper? line hw) ht
    · exact isLine_ofTokens fun _ ht => isLine_tokenize line ht

/-! ## Runs -/

/-- All errors and warnings of the layout stand on one line each. -/
abbrev InLines (s : State) : Prop := s.draft.InLines Error.message Warning.message

namespace State

variable {s : State}

theorem inLines_put (h : InLines s) (k : Concern) (c : Text) (again : Superseded)
    (ha : IsLine again.title) : InLines (s.put k c again) :=
  Draft.InLines.put h k [c] (isLine_append.2 ⟨ha, by decide⟩)

theorem inLines_setSize (h : InLines s) (d : Dimension) {value : Text} (hv : IsLine value) :
    InLines (s.setSize d value) := by
  have seen : InLines (s.see d) := by cases d <;> exact h
  have name : IsLine d.name := by cases d <;> decide
  unfold setSize
  dsimp only
  split
  · exact inLines_put seen _ _ _ name
  · exact seen.error
      (isLine_quoted (isLine_quoted (by decide) name (by decide)) hv (by decide))

theorem inLines_setClip (h : InLines s) (on : Bool) : InLines (s.setClip on) := by
  cases on <;> exact h.classes _

theorem inLines_setSpacing (h : InLines s) (axis : Spacing) {value : Text} (hv : IsLine value) :
    InLines (s.setSpacing axis value) := by
  have name : IsLine axis.name := by cases axis <;> decide
  unfold setSpacing
  split
  · exact inLines_put h _ _ _ name
  · exact h.error (isLine_quoted (isLine_quoted (by decide) name (by decide)) hv (by decide))

theorem inLines_setDirection (h : InLines s) (f : Flow) : InLines (s.setDirection f) := by
  cases f <;> exact inLines_put h .flow _ .flow (by decide)

theorem inLines_setWrap (h : InLines s) : InLines s.setWrap := by
  unfold setWrap
  split
  · exact h.classes _
  · exact h.error (by decide)

theorem inLines_setFlow (h : InLines s) {value : Text} (hv : IsLine value) :
    InLines (s.setFlow value) := by
  have seen : InLines { s with flowSeen := true } := h
  have unwrapped : InLines { s with
      flowSeen := true, draft := s.draft.discard .wrap .wrapRemoved } :=
    h.discard .wrap (by decide)
  unfold setFlow
  dsimp only
  split_ifs
  · exact inLines_setDirection unwrapped .column
  · exact inLines_setDirection seen .row
  · exact inLines_setWrap seen
  · exact seen.error (isLine_quoted (by decide) hv (by decide))

theorem inLines_setAlignment (h : InLines s) {value : Text} (hv : IsLine value) :
    InLines (s.setAlignment value) := by
  have seen : InLines { s with alignmentSeen := true } := h
  unfold setAlignment
  dsimp only
  split
  · split
    · exact seen.warn (w := .superseded .alignment) (by decide)
    · exact seen
  · exact seen.error (isLine_quoted (by decide) hv (by decide))

theorem inLines_setGap (h : InLines s) {value : Text} (hv : IsLine value) :
    InLines (s.setGap value) := by
  have seen : InLines { s with gapSeen := true } := h
  unfold setGap
  dsimp only
  split
  · exact h.classes _
  · split
    · exact inLines_put seen .gap _ .gap (by decide)
    · exact seen.error (isLine_quoted (by decide) hv (by decide))

theorem inLines_replacePadding (h : InLines s) (kind : Padding) :
    InLines (s.replacePadding kind) := by
  have replaced (k : Padding) : IsLine (Warning.paddingReplaced kind k).message := by
    cases kind <;> cases k <;> decide
  unfold replacePadding
  dsimp only
  split
  · exact h.classes _
  · exact List.foldlRecOn (motive := Draft.InLines Error.message Warning.message) kind.replaced _ h
      fun _ hd k _ => hd.discard _ (replaced k)

theorem inLines_setPadding (h : InLines s) {i : Padding.Item} (hi : i.IsLine) :
    InLines (s.setPadding i) := by
  cases i with
  | value kind value =>
    have name : IsLine kind.name := by cases kind <;> decide
    simp only [setPadding]
    split
    · exact inLines_put (inLines_replacePadding h kind) _ _ _ name
    · exact h.error (isLine_quoted (isLine_quoted (by decide) name (by decide)) hi (by decide))
  | unknown token => exact h.warn (isLine_quoted (by decide) hi.written (by decide))

theorem inLines_setSetting (h : InLines s) {i : Setting} (hi : i.IsLine) :
    InLines (s.setSetting i) := by
  cases i with
  | baseline name value =>
    have quoted : IsLine (value.getD []) := by
      cases value with
      | none => decide
      | some v => exact hi.2 v rfl
    simp only [setSetting]
    split
    · exact h
    · exact h.error (isLine_quoted (isLine_quoted (by decide) hi.1 (by decide)) quoted (by decide))
  | unsupported name => exact h.warn (isLine_quoted (by decide) hi (by decide))
  | unknown token => exact h.warn (isLine_quoted (by decide) hi.written (by decide))

theorem inLines_applyAuto (h : InLines s) {a : AutoEntry} (ha : a.IsLine) :
    InLines (s.applyAuto a) := by
  cases a with
  | flow value => exact inLines_setFlow h ha
  | align value => exact inLines_setAlignment h ha
  | gap value => exact inLines_setGap h ha
  | settings items =>
    exact List.foldlRecOn (motive := InLines) items setSetting h fun _ hs i hi =>
      inLines_setSetting hs (ha i hi)
  | padding items =>
    exact List.foldlRecOn (motive := InLines) items setPadding h fun _ hs i hi =>
      inLines_setPadding hs (ha i hi)

theorem inLines_apply (h : InLines s) (mode : Mode) {e : Entry} (he : e.IsLine) :
    InLines (s.apply mode e) := by
  cases e with
  | marker => exact h
  | clip on => exact inLines_setClip h on
  | unclearClip value => exact h.error (isLine_quoted (by decide) he (by decide))
  | size token d value =>
    simp only [apply]
    split
    · exact h.error (isLine_quoted (by decide) he.1.written (by decide))
    · exact inLines_setSize h d he.2
  | spacing token axis value =>
    simp only [apply]
    split
    · exact h.error (isLine_quoted (by decide) he.1.written (by decide))
    · exact inLines_setSpacing h axis he.2
  | auto token a =>
    simp only [apply]
    split
    · exact inLines_applyAuto h he.2
    · exact h.error (isLine_quoted (by decide) he.1.written (by decide))
  | unread u => exact h.warn he

theorem inLines_step (h : InLines s) (mode : Mode) {t : Token} (ht : t.IsLine) :
    InLines (s.step mode t) :=
  List.foldlRecOn (motive := InLines) (Entry.ofToken t) (apply mode) h fun _ hs e he =>
    inLines_apply hs mode (Entry.isLine_ofToken ht e he)

/-! ## The end -/

theorem inLines_resolveAlignment (h : InLines s) : InLines s.resolveAlignment := by
  unfold resolveAlignment
  cases s.justifyClass? <;> cases s.itemsClass? <;> exact h.classes _

theorem inLines_checkSize (h : InLines s) : InLines s.checkSize := by
  unfold checkSize
  split
  · exact h.error (by decide)
  · exact h.error (by decide)
  · exact h.error (by decide)
  · exact h

/-- What is missing is added as an error or a warning. -/
theorem inLines_or (h : InLines s) (seen : Bool) {r : State} (h' : InLines r) :
    InLines (if seen then s else r) := by
  split
  · exact h
  · exact h'

theorem inLines_checkAuto (h : InLines s) : InLines s.checkAuto := by
  have flow : InLines (if s.flowSeen then s else s.error .missingFlow) :=
    inLines_or h _ (h.error (by decide))
  unfold checkAuto
  dsimp only
  generalize (if s.flowSeen then s else s.error .missingFlow) = s₁ at flow
  have alignment : InLines (if s₁.alignmentSeen then s₁ else s₁.warn .noAlignment) :=
    inLines_or flow _ (flow.warn (by decide))
  exact inLines_or alignment _ (alignment.warn (by decide))

theorem inLines_setDisplay (h : InLines s) : InLines s.setDisplay := by
  unfold setDisplay
  split
  · exact h.classes _
  · exact h

theorem inLines_finish (h : InLines s) (mode : Mode) : InLines (s.finish mode) := by
  unfold finish
  split
  · exact inLines_setDisplay (inLines_checkAuto (inLines_checkSize (inLines_resolveAlignment h)))
  · exact inLines_checkSize h

end State

theorem inLines_run {r : Resolution} (h : ∀ t ∈ r.tokens, t.IsLine) : InLines (run r) := by
  have advice : Draft.InLines Error.message Warning.message
      ({ warnings := r.advice.toList.map .advice } : Draft Concern Error Warning) := by
    refine ⟨nofun, fun w hw => ?_⟩
    obtain ⟨a, -, rfl⟩ := List.mem_map.1 hw
    cases a <;> decide
  exact List.foldlRecOn (motive := InLines) r.tokens (State.step r.mode)
    (b := { draft := { warnings := r.advice.toList.map .advice } }) advice
    fun _ hs t ht => State.inLines_step hs r.mode (h t ht)

/-- A layout on one line has problems on one line each. -/
theorem inLines_read {input : Option Text} (h : ∀ s ∈ input, IsLine s) :
    (read input).report.InLines :=
  (State.inLines_finish (inLines_run (Mode.isLine_resolve h)) _).report .layout

end Inspector.Layout
