import Inspector.Proofs.Draft.Matching
import Inspector.Proofs.Layout.Advice
import Inspector.Proofs.Layout.Lower
import Inspector.Proofs.Token.Keys

/-!
# Layouts with the same keys in any case

The keys of a layout, those of its dimensions and settings, and those in the groups of its paddings
are known in lower case. Tokens that are the same but for the case of keys settle the same mode and
have the same entries, but for the tokens that messages quote.

    SamePadding v v' → the items of both are the same but for unknown tokens         (same_items)
    SameToken t t' → the entries of both are the same but for what they quote      (same_ofToken)
    r.Same r' → the readings of both match and have the same mode             (reading_of_same_keys)
-/

namespace Inspector.Layout

open Text

/-! ## Tokens -/

/-- Equal values, or groups of paddings with the same tokens but for the keys, in the groups inside
as well. -/
inductive SamePadding : Text → Text → Prop where
  | same (value : Text) : SamePadding value value
  | group {value value' inner inner' : Text} (hv : Group.strip? value = some inner)
    (hv' : Group.strip? value' = some inner')
    (items : List.Forall₂ (Token.SameButKey SamePadding fun _ => SamePadding) (tokenize inner)
      (tokenize inner')) : SamePadding value value'

/-- The keys of a layout whose values have items with keys of their own. -/
def itemKeys : List Text := ["dimensions", "size", "settings"]

/-- Values that differ in case alone, where the case of a key may differ and nothing else. -/
def SameValue (key value value' : Text) : Prop :=
  lower value = lower value' ∧
    if itemKeys.contains key then SameItems value value'
    else if (Padding.ofKey? key).isSome then SamePadding value value'
    else value = value'

/-- Tokens of a layout that differ in the case of keys alone. -/
abbrev SameToken : Token → Token → Prop := Token.SameButKey Eq SameValue

/-- Resolutions whose tokens differ in the case of keys alone. -/
structure Resolution.Same (r r' : Resolution) : Prop where
  mode : r.mode = r'.mode
  tokens : List.Forall₂ SameToken r.tokens r'.tokens
  advice : r.advice = r'.advice

/-! ## Paddings -/

/-- Equal items, or two unknown tokens. -/
inductive Padding.Item.Same : Padding.Item → Padding.Item → Prop where
  | same (i : Padding.Item) : Same i i
  | unknown (t t' : Token) : Same (.unknown t) (.unknown t')

namespace Padding

/-- The leaves of one token in a group of this kind. -/
def itemsOf (kind : Padding) (t : Token) : List Item :=
  match given? kind t with
  | some (k, text) => items k text
  | none => [.unknown t]

theorem items_of_group {kind : Padding} {value inner : Text}
    (h : Group.strip? value = some inner) :
    items kind value = (tokenize inner).flatMap (itemsOf kind) := by
  rw [items]
  split
  · next hn =>
    rw [h] at hn
    cases hn
  · next inner' hi =>
    rw [h] at hi
    obtain rfl := Option.some.inj hi
    refine Eq.trans ?_ (attach_flatMap _ (itemsOf kind))
    congr 1
    funext p
    unfold itemsOf
    dsimp only
    split
    · next hg => rw [hg]
    · next hg => rw [hg]

theorem items_of_same (kind : Padding) {value value' : Text} (h : SamePadding value value') :
    List.Forall₂ Item.Same (items kind value) (items kind value') := by
  induction hn : value.length using Nat.strongRecOn generalizing kind value value' with
  | _ n ih =>
    cases h with
    | same => exact List.forall₂_same.2 fun i _ => .same i
    | @group _ _ inner inner' hv hv' tokens =>
      have shorter : ∀ t ∈ tokenize inner, t.text.length < n := by
        intro t ht
        have h1 := Group.length_strip? hv
        have h2 := length_text_of_mem_tokenize ht
        omega
      rw [items_of_group hv, items_of_group hv']
      refine List.rel_flatMap ((List.forall₂_and_left _ _).2 ⟨shorter, tokens⟩) fun t t' ht => ?_
      obtain ⟨hlength, hsame⟩ := ht
      cases hsame with
      | bare htext => exact ih _ hlength kind htext rfl
      | pair hkey hvalue =>
        unfold itemsOf given?
        dsimp only
        rw [← hkey]
        cases ofGroupKey? (lower _) with
        | none => exact .cons (.unknown _ _) .nil
        | some k => exact ih _ hlength k hvalue rfl

end Padding

/-! ## Entries -/

/-- Equal settings, or two unknown tokens. -/
inductive Setting.Same : Setting → Setting → Prop where
  | same (i : Setting) : Same i i
  | unknown (t t' : Token) : Same (.unknown t) (.unknown t')

inductive AutoEntry.Same : AutoEntry → AutoEntry → Prop where
  | same (a : AutoEntry) : Same a a
  | settings {items items' : List Setting} (h : List.Forall₂ Setting.Same items items') :
    Same (.settings items) (.settings items')
  | padding {items items' : List Padding.Item} (h : List.Forall₂ Padding.Item.Same items items') :
    Same (.padding items) (.padding items')

/-- The same entries but for the tokens that they quote. -/
inductive Entry.Same : Entry → Entry → Prop where
  | same (e : Entry) : Same e e
  | size (t t' : Token) (d : Dimension) (value : Text) : Same (.size t d value) (.size t' d value)
  | spacing (t t' : Token) (axis : Spacing) (value : Text) :
    Same (.spacing t axis value) (.spacing t' axis value)
  | auto (t t' : Token) {a a' : AutoEntry} (h : a.Same a') : Same (.auto t a) (.auto t' a')
  | dimension (t t' : Token) : Same (.unread (.dimension t)) (.unread (.dimension t'))

theorem same_setting {t t' : Token} (h : t.SameItem t') :
    (Setting.ofToken t).Same (Setting.ofToken t') := by
  cases h with
  | bare htext =>
    rw [htext]
    exact .same _
  | pair hkey hvalue =>
    unfold Setting.ofToken
    dsimp only
    rw [hkey, hvalue]
    cases Setting.ofName? _ _ with
    | none => exact .unknown _ _
    | some setting => exact .same setting

theorem same_dimension {t t' : Token} (h : t.SameItem t') :
    (Entry.ofDimensionItem t).Same (Entry.ofDimensionItem t') := by
  cases h with
  | bare htext =>
    rw [htext]
    exact .same _
  | pair hkey hvalue =>
    unfold Entry.ofDimensionItem
    dsimp only
    rw [hkey, hvalue]
    cases Dimension.ofKey? _ with
    | none => exact .dimension _ _
    | some d => exact .size _ _ d _

/-- The entries of a pair but for the token that it comes from. -/
theorem same_ofPair_of_eq (t t' : Token) (key value : Text) :
    List.Forall₂ Entry.Same (Entry.ofPair t key value) (Entry.ofPair t' key value) := by
  have only {e e' : Entry} (h : e.Same e') : List.Forall₂ Entry.Same [e] [e'] := .cons h .nil
  have named : (Entry.ofNamed t key value).Same (Entry.ofNamed t' key value) := by
    unfold Entry.ofNamed
    split
    · exact .auto t t' (.same _)
    · exact .auto t t' (.same _)
    · exact .size t t' _ value
    · exact .same _
  unfold Entry.ofPair
  refine rel_ite (only (.same _)) ?_
  refine rel_ite (List.forall₂_same.2 fun e _ => .same e) ?_
  refine rel_ite (only (.same _)) ?_
  refine rel_ite (only (.spacing t t' .y value)) ?_
  refine rel_ite (only (.spacing t t' .x value)) ?_
  refine rel_ite (only (.auto t t' (.same _))) ?_
  refine rel_ite (only (.auto t t' (.same _))) ?_
  refine rel_ite (only (.auto t t' (.same _))) ?_
  refine rel_ite (only (.auto t t' (.same _))) ?_
  exact only named

theorem ofPair_of_padding (t : Token) {key : Text} {kind : Padding}
    (h : Padding.ofKey? key = some kind) (value : Text) :
    Entry.ofPair t key value = [.auto t (.padding (kind.items value))] := by
  have each : ∀ p ∈ Padding.keys,
      Entry.ofPair t p.1 value = [.auto t (.padding (p.2.items value))] := by
    simp only [Padding.keys, List.forall_mem_cons]
    exact ⟨rfl, rfl, rfl, rfl, rfl, rfl, rfl, rfl, rfl, rfl, rfl, rfl, rfl, rfl, rfl, rfl, nofun⟩
  have mem : (key, kind) ∈ Padding.keys := by
    obtain ⟨_, _, hkeys, -⟩ := List.lookup_eq_some_iff.1 h
    rw [hkeys]
    exact List.mem_append_right _ List.mem_cons_self
  exact each (key, kind) mem

theorem same_ofPair (t t' : Token) {key value value' : Text} (h : SameValue key value value') :
    List.Forall₂ Entry.Same (Entry.ofPair t key value) (Entry.ofPair t' key value') := by
  obtain ⟨-, h⟩ := h
  split at h
  · next hkey =>
    have items := List.rel_map @same_dimension h
    have settings := List.rel_map @same_setting h
    have listed : key = "dimensions" ∨ key = "size" ∨ key = "settings" := by
      simpa [itemKeys] using hkey
    rcases listed with rfl | rfl | rfl
    · exact items
    · exact items
    · exact .cons (.auto t t' (.settings settings)) .nil
  · split at h
    · next hkey =>
      obtain ⟨kind, hkind⟩ := Option.isSome_iff_exists.1 hkey
      rw [ofPair_of_padding t hkind, ofPair_of_padding t' hkind]
      exact .cons (.auto t t' (.padding (Padding.items_of_same kind h))) .nil
    · rw [h]
      exact same_ofPair_of_eq t t' key value'

theorem same_ofToken {t t' : Token} (h : SameToken t t') :
    List.Forall₂ Entry.Same (Entry.ofToken t) (Entry.ofToken t') := by
  cases h with
  | bare htext =>
    rw [htext]
    exact List.forall₂_same.2 fun e _ => .same e
  | pair hkey hvalue =>
    unfold Entry.ofToken
    dsimp only
    rw [← hkey]
    exact same_ofPair _ _ hvalue

/-! ## Steps -/

namespace State

/-- States that differ in the wording of their messages at most. -/
structure Matches (s s' : State) : Prop where
  draft : s.draft.Matches s'.draft
  widthSeen : s.widthSeen = s'.widthSeen
  heightSeen : s.heightSeen = s'.heightSeen
  flow : s.flow = s'.flow
  flowSeen : s.flowSeen = s'.flowSeen
  alignment : s.alignment = s'.alignment
  alignmentSeen : s.alignmentSeen = s'.alignmentSeen
  gapSeen : s.gapSeen = s'.gapSeen
  gapBetween : s.gapBetween = s'.gapBetween
  baseline : s.baseline = s'.baseline

namespace Matches

variable {s s' : State}

theorem refl (s : State) : s.Matches s := ⟨.refl _, rfl, rfl, rfl, rfl, rfl, rfl, rfl, rfl, rfl⟩

theorem error (h : s.Matches s') (e e' : Error) : (s.error e).Matches (s'.error e') :=
  { h with draft := h.draft.error e e' }

theorem warn (h : s.Matches s') (w w' : Warning) : (s.warn w).Matches (s'.warn w') :=
  { h with draft := h.draft.warn w w' }

theorem put (h : s.Matches s') (k : Concern) (c : Text) (again : Superseded) :
    (s.put k c again).Matches (s'.put k c again) :=
  { h with draft := h.draft.put .. }

theorem see (h : s.Matches s') (d : Dimension) : (s.see d).Matches (s'.see d) := by
  cases d with
  | width => exact { h with widthSeen := rfl }
  | height => exact { h with heightSeen := rfl }
  | minWidth => exact h
  | maxWidth => exact h
  | minHeight => exact h
  | maxHeight => exact h

theorem setSize (h : s.Matches s') (d : Dimension) (value : Text) :
    (s.setSize d value).Matches (s'.setSize d value) := by
  unfold State.setSize
  split
  · exact (h.see d).put ..
  · exact (h.see d).error ..

theorem setClip (h : s.Matches s') (on : Bool) : (s.setClip on).Matches (s'.setClip on) :=
  { h with draft := related_ite rfl (h.draft.insert ..) (h.draft.erase _) }

theorem setSpacing (h : s.Matches s') (axis : Spacing) (value : Text) :
    (s.setSpacing axis value).Matches (s'.setSpacing axis value) := by
  unfold State.setSpacing
  split
  · exact h.put ..
  · exact h.error ..

theorem setDirection (h : s.Matches s') (flow : Flow) :
    (s.setDirection flow).Matches (s'.setDirection flow) := by
  cases flow with
  | row => exact { h.put .flow "flex-row" .flow with flow := rfl }
  | column => exact { h.put .flow "flex-col" .flow with flow := rfl }

theorem setWrap (h : s.Matches s') : s.setWrap.Matches s'.setWrap := by
  unfold State.setWrap
  by_cases row : s.flow = some .row
  · rw [if_pos row, if_pos (h.flow ▸ row)]
    exact { h with draft := h.draft.insert .. }
  · rw [if_neg row, if_neg (h.flow ▸ row)]
    exact h.error ..

theorem setFlow (h : s.Matches s') (value : Text) :
    (s.setFlow value).Matches (s'.setFlow value) := by
  have seen : Matches { s with flowSeen := true } { s' with flowSeen := true } :=
    { h with flowSeen := rfl }
  have unwrapped : Matches
      { s with flowSeen := true, draft := s.draft.discard .wrap .wrapRemoved }
      { s' with flowSeen := true, draft := s'.draft.discard .wrap .wrapRemoved } :=
    { seen with draft := h.draft.discard .. }
  unfold State.setFlow
  dsimp only
  split_ifs
  · exact unwrapped.setDirection .column
  · exact seen.setDirection .row
  · exact seen.setWrap
  · exact seen.error ..

theorem setAlignment (h : s.Matches s') (value : Text) :
    (s.setAlignment value).Matches (s'.setAlignment value) := by
  have seen : Matches { s with alignmentSeen := true } { s' with alignmentSeen := true } :=
    { h with alignmentSeen := rfl }
  unfold State.setAlignment
  dsimp only
  split
  · next a _ =>
    have other : (s.alignment.any (· != a)) = s'.alignment.any (· != a) := by rw [h.alignment]
    have warned := related_ite other (seen.warn (.superseded .alignment) (.superseded .alignment))
      seen
    exact { warned with alignment := rfl }
  · exact seen.error ..

theorem setGap (h : s.Matches s') (value : Text) : (s.setGap value).Matches (s'.setGap value) := by
  have seen : Matches { s with gapSeen := true } { s' with gapSeen := true } :=
    { h with gapSeen := rfl }
  unfold State.setGap
  dsimp only
  split_ifs
  · exact { seen with draft := h.draft.erase _, gapBetween := rfl }
  · split
    · next f _ => exact { seen.put .gap ("gap-" ++ f) .gap with gapBetween := rfl }
    · exact seen.error ..

theorem replacePadding (h : s.Matches s') (kind : Padding) :
    (s.replacePadding kind).Matches (s'.replacePadding kind) := by
  have discarded := List.foldl_rel (l := kind.replaced) (r := Draft.Matches) h.draft
    fun k _ _ _ hd => hd.discard (.padding k) (.paddingReplaced kind k) (.paddingReplaced kind k)
  unfold State.replacePadding
  dsimp only
  split_ifs
  · exact { h with draft := h.draft.eraseAll _ }
  · exact { h with draft := discarded }

theorem setPadding (h : s.Matches s') {i i' : Padding.Item} (hi : i.Same i') :
    (s.setPadding i).Matches (s'.setPadding i') := by
  cases hi with
  | unknown t t' => exact h.warn ..
  | same =>
    cases i with
    | unknown t => exact h.warn ..
    | value kind value =>
      unfold State.setPadding
      dsimp only
      split
      · exact (h.replacePadding kind).put ..
      · exact h.error ..

theorem setSetting (h : s.Matches s') {i i' : Setting} (hi : i.Same i') :
    (s.setSetting i).Matches (s'.setSetting i') := by
  cases hi with
  | unknown t t' => exact h.warn ..
  | same =>
    cases i with
    | unknown t => exact h.warn ..
    | unsupported name => exact h.warn ..
    | baseline name value =>
      unfold State.setSetting
      dsimp only
      split
      · exact { h with baseline := rfl }
      · exact h.error ..

theorem applyAuto (h : s.Matches s') {a a' : AutoEntry} (ha : a.Same a') :
    (s.applyAuto a).Matches (s'.applyAuto a') := by
  have settings {items items' : List Setting} (hi : List.Forall₂ Setting.Same items items') :
      (s.applyAuto (.settings items)).Matches (s'.applyAuto (.settings items')) :=
    List.rel_foldl (P := Matches) (R := Setting.Same) (fun _ _ hs _ _ hi => hs.setSetting hi) h hi
  have padding {items items' : List Padding.Item}
      (hi : List.Forall₂ Padding.Item.Same items items') :
      (s.applyAuto (.padding items)).Matches (s'.applyAuto (.padding items')) :=
    List.rel_foldl (P := Matches) (R := Padding.Item.Same) (fun _ _ hs _ _ hi => hs.setPadding hi)
      h hi
  cases ha with
  | settings hi => exact settings hi
  | padding hi => exact padding hi
  | same =>
    cases a with
    | flow value => exact h.setFlow value
    | align value => exact h.setAlignment value
    | gap value => exact h.setGap value
    | settings items => exact settings (List.forall₂_same.2 fun i _ => .same i)
    | padding items => exact padding (List.forall₂_same.2 fun i _ => .same i)

/-- Whether an entry is let through depends on the mode and the entry alone. -/
theorem apply (h : s.Matches s') (mode : Mode) {e e' : Entry} (he : e.Same e') :
    (s.apply mode e).Matches (s'.apply mode e') := by
  have size (t t' : Token) (d : Dimension) (value : Text) :
      (s.apply mode (.size t d value)).Matches (s'.apply mode (.size t' d value)) :=
    related_ite rfl (h.error ..) (h.setSize d value)
  have spacing (t t' : Token) (axis : Spacing) (value : Text) :
      (s.apply mode (.spacing t axis value)).Matches (s'.apply mode (.spacing t' axis value)) := by
    unfold State.apply
    dsimp only
    split_ifs
    · exact h.error ..
    · exact h.setSpacing axis value
  have auto (t t' : Token) {a a' : AutoEntry} (ha : a.Same a') :
      (s.apply mode (.auto t a)).Matches (s'.apply mode (.auto t' a')) := by
    unfold State.apply
    dsimp only
    split_ifs
    · exact h.applyAuto ha
    · exact h.error ..
  cases he with
  | size t t' d value => exact size t t' d value
  | spacing t t' axis value => exact spacing t t' axis value
  | auto t t' ha => exact auto t t' ha
  | dimension t t' => exact h.warn ..
  | same =>
    cases e with
    | marker => exact h
    | clip on => exact h.setClip on
    | unclearClip value => exact h.error ..
    | size t d value => exact size t t d value
    | spacing t axis value => exact spacing t t axis value
    | auto t a => exact auto t t (.same a)
    | unread u => exact h.warn ..

theorem step (h : s.Matches s') (mode : Mode) {t t' : Token} (ht : SameToken t t') :
    (s.step mode t).Matches (s'.step mode t') :=
  List.rel_foldl (P := Matches) (R := Entry.Same) (fun _ _ hs _ _ he => hs.apply mode he) h
    (same_ofToken ht)

/-! ### The end -/

theorem resolveAlignment (h : s.Matches s') : s.resolveAlignment.Matches s'.resolveAlignment := by
  have justify : s.justifyClass? = s'.justifyClass? := by
    rw [justifyClass?, h.gapBetween, h.alignment, h.flow, justifyClass?]
  have items : s.itemsClass? = s'.itemsClass? := by
    rw [itemsClass?, h.baseline, h.alignment, h.flow, itemsClass?]
  unfold State.resolveAlignment
  dsimp only
  rw [justify, items]
  cases s'.justifyClass? with
  | none =>
    cases s'.itemsClass? with
    | none => exact h
    | some i => exact { h with draft := h.draft.insert .. }
  | some c =>
    have justified := h.draft.insert .justify c
    cases s'.itemsClass? with
    | none => exact { h with draft := justified }
    | some i => exact { h with draft := justified.insert .. }

theorem checkSize (h : s.Matches s') : s.checkSize.Matches s'.checkSize := by
  unfold State.checkSize
  rw [h.widthSeen, h.heightSeen]
  split
  · exact h.error ..
  · exact h.error ..
  · exact h.error ..
  · exact h

theorem checkAuto (h : s.Matches s') : s.checkAuto.Matches s'.checkAuto := by
  have flowing := related_ite h.flowSeen h (h.error .missingFlow .missingFlow)
  have aligned := related_ite flowing.alignmentSeen flowing
    (flowing.warn .noAlignment .noAlignment)
  exact related_ite aligned.gapSeen aligned (aligned.warn .noGap .noGap)

theorem setDisplay (h : s.Matches s') : s.setDisplay.Matches s'.setDisplay := by
  have flex : flexConcerns.any s.draft.contains = flexConcerns.any s'.draft.contains := by
    rw [funext h.draft.contains_eq]
  exact related_ite flex { h with draft := h.draft.prepend .. } h

theorem finish (h : s.Matches s') (mode : Mode) : (s.finish mode).Matches (s'.finish mode) := by
  unfold State.finish
  split
  · exact h.resolveAlignment.checkSize.checkAuto.setDisplay
  · exact h.checkSize

end Matches

end State

/-! ## Resolutions -/

theorem sameToken_refl (t : Token) : SameToken t t := by
  refine .refl (fun _ => rfl) (fun key value => ⟨rfl, ?_⟩) t
  split_ifs
  · exact .refl value
  · exact .same value
  · rfl

theorem lowered_eq_of_sameToken {t t' : Token} (h : SameToken t t') : t.lowered = t'.lowered := by
  cases h with
  | bare htext => rw [htext]
  | pair hkey hvalue => rw [Token.lowered, Token.lowered, hkey, hvalue.1]

theorem same_of_lowered_eq {r r' : Resolution} (h : r.lowered = r'.lowered)
    (tokens : List.Forall₂ SameToken r.tokens r'.tokens) : r.Same r' := by
  have mode : r.lowered.mode = r'.lowered.mode := by rw [h]
  have advice : r.lowered.advice = r'.lowered.advice := by rw [h]
  exact ⟨mode, tokens, advice⟩

/-- The tokens behind a wrapper at the head are read along with those inside of it. -/
theorem tokens_ofTokens (ts : List Token) :
    (Mode.ofTokens ts).tokens =
      ((ts.head?.bind Mode.leading?).map fun w => tokenize w.2 ++ ts.tail).getD ts := by
  unfold Mode.ofTokens
  cases ts.head?.bind Mode.leading? with
  | some w => rfl
  | none =>
    dsimp only [Option.map_none, Option.getD_none]
    split_ifs
    all_goals rfl

theorem same_ofTokens {ts ts' : List Token} (h : List.Forall₂ SameToken ts ts') :
    (Mode.ofTokens ts).Same (Mode.ofTokens ts') := by
  have lowered : ts.map Token.lowered = ts'.map Token.lowered := by
    rw [← List.forall₂_eq_eq_eq]
    exact List.rel_map @lowered_eq_of_sameToken h
  refine same_of_lowered_eq (by rw [← Mode.ofTokens_lowered, lowered, Mode.ofTokens_lowered]) ?_
  rw [tokens_ofTokens, tokens_ofTokens]
  cases h with
  | nil => exact .nil
  | cons ht hts =>
    cases ht with
    | pair hkey hvalue => exact .cons (.pair hkey hvalue) hts
    | @bare text text' htext =>
      rw [← htext]
      show List.Forall₂ SameToken
        (((Mode.leading? (.bare text)).map fun w => tokenize w.2 ++ _).getD _)
        (((Mode.leading? (.bare text)).map fun w => tokenize w.2 ++ _).getD _)
      cases Mode.leading? (.bare text) with
      | none => exact .cons (sameToken_refl _) hts
      | some w => exact List.rel_append (List.forall₂_same.2 fun t _ => sameToken_refl t) hts

/-- The mode of a text, and the advice on it, do not hang on letter case. -/
theorem same_resolve {s s' : Text} (h : lower s = lower s')
    (tokens : List.Forall₂ SameToken (Mode.resolve (some s)).tokens
      (Mode.resolve (some s')).tokens) :
    (Mode.resolve (some s)).Same (Mode.resolve (some s')) :=
  same_of_lowered_eq (by rw [← Mode.resolve_lower, h, Mode.resolve_lower]) tokens

/-! ## Readings -/

theorem run_of_same_keys {r r' : Resolution} (h : r.Same r') : (run r).Matches (run r') := by
  obtain ⟨mode, ts, advice⟩ := r
  obtain ⟨mode', ts', advice'⟩ := r'
  obtain ⟨rfl, htokens, rfl⟩ := h
  exact List.rel_foldl (P := State.Matches) (R := SameToken)
    (fun _ _ hs _ _ ht => hs.step mode ht) (.refl _) htokens

/-- Resolutions that are the same but for the case of keys are read alike. -/
theorem reading_of_same_keys {r r' : Resolution} (h : r.Same r') :
    r.reading.mode = r'.reading.mode ∧ r.reading.report.Matches r'.reading.report := by
  have finished := (run_of_same_keys h).finish r'.mode
  refine ⟨h.mode, ?_⟩
  rw [Resolution.reading, h.mode]
  exact finished.draft.report .layout Error.message Warning.message

end Inspector.Layout
