import Inspector.Proofs.Layout.Family
import Inspector.Proofs.Layout.Outcome

/-!
# The required values of a layout

A layout has to give a width and a height, and Auto layout a flow as well; where Auto layout is given
no alignment or no gap, it says what holds instead. A value counts as given as soon as a token asks
for it, by key or as an item, alone or in a group: whether it can be read is another matter.

    Dimension.ofItem? text = some (d, v) ↔ afterWord? (d.short ++ "-") text = some v
                                                                            (ofItem?_eq_some_iff)
    (s.step mode t).seen v = (s.seen v || gives v t)                                  (seen_step)
    (run r).seen v = r.tokens.any (gives v)                                            (seen_run)
    (s.finish mode).draft.errors = s.draft.errors ++ missing mode s.seen          (errors_finish)
-/

namespace Inspector.Layout

open Text

/-! ## Dimensions -/

namespace Dimension

theorem mem_all (d : Dimension) : d ∈ all := by
  cases d <;> decide

/-- Two items begin differently, so a text is an item of one dimension at most. -/
theorem eq_of_afterWord? {d d' : Dimension} {text v v' : Text}
    (h : afterWord? (d.short ++ "-") text = some v)
    (h' : afterWord? (d'.short ++ "-") text = some v') : d = d' := by
  have apart : ∀ d ∈ all, ∀ d' ∈ all,
      lower (d.short ++ "-") <+: lower (d'.short ++ "-") → d = d' := by decide
  have begins : lower (d.short ++ "-") <+: lower text := ⟨_, (lower_of_afterWord? h).symm⟩
  have begins' : lower (d'.short ++ "-") <+: lower text := ⟨_, (lower_of_afterWord? h').symm⟩
  rcases List.prefix_or_prefix_of_prefix begins begins' with le | le
  · exact apart d d.mem_all d' d'.mem_all le
  · exact (apart d' d'.mem_all d d.mem_all le).symm

theorem ofItem?_eq_some_iff {d : Dimension} {text v : Text} :
    ofItem? text = some (d, v) ↔ afterWord? (d.short ++ "-") text = some v := by
  constructor
  · intro h
    obtain ⟨d', -, hd'⟩ := List.exists_of_findSome?_eq_some h
    obtain ⟨v', hv', heq⟩ := Option.map_eq_some_iff.1 hd'
    obtain ⟨rfl, rfl⟩ := Prod.mk.inj heq
    exact hv'
  · intro h
    have found : (ofItem? text).isSome := by
      rw [ofItem?, List.findSome?_isSome_iff]
      exact ⟨d, d.mem_all, by rw [h]; rfl⟩
    obtain ⟨⟨d', v'⟩, hi⟩ := Option.isSome_iff_exists.1 found
    obtain ⟨d'', -, hd''⟩ := List.exists_of_findSome?_eq_some hi
    obtain ⟨w, hw, heq⟩ := Option.map_eq_some_iff.1 hd''
    obtain ⟨rfl, rfl⟩ := Prod.mk.inj heq
    obtain rfl := eq_of_afterWord? h hw
    rw [hi, Option.some.inj (hw.symm.trans h)]

theorem ofKey?_eq_some_iff {d : Dimension} {key : Text} :
    ofKey? key = some d ↔ key = d.short ∨ key = d.name := by
  constructor
  · intro h
    simpa using List.find?_some h
  · have each : ∀ d ∈ all, ofKey? d.short = some d ∧ ofKey? d.name = some d := by decide
    rintro (rfl | rfl)
    · exact (each d d.mem_all).1
    · exact (each d d.mem_all).2

end Dimension

/-! ## What a token gives -/

/-- The values whose absence the end of a layout reports. -/
inductive Required where
  | width
  | height
  | flow
  | alignment
  | gap
  deriving DecidableEq, Repr

/-- An item of a dimension, such as `w-100px` or `width=100px`, whatever its value. -/
def isItemOf (d : Dimension) : Token → Bool
  | .bare text => (afterWord? (d.short ++ "-") text).isSome
  | .pair key _ => lower key == d.short || lower key == d.name

/-- The items in which a token can give dimensions: those of its group, or the token itself. -/
def dimensionItems : Token → List Token
  | .bare text => [.bare text]
  | .pair key value =>
    if lower key = "dimensions" ∨ lower key = "size" then tokenize (unwrapped value)
    else [.pair key value]

/-- A token that gives the dimension, alone or in a group. -/
def givesSize (d : Dimension) (t : Token) : Bool := (dimensionItems t).any (isItemOf d)

/-- An arrow other than the double one, or the key of the flow. -/
def givesFlow : Token → Bool
  | .bare text => lower text == "↓" || lower text == "→" || lower text == "↵"
  | .pair key _ => lower key == "flow"

/-- A cell of the grid, or a key of the alignment. -/
def givesAlignment : Token → Bool
  | .bare text => alignmentWords.contains (lower (trim text))
  | .pair key _ => lower key == "align" || lower key == "alignment"

/-- The double arrow, or the key of the gap. -/
def givesGap : Token → Bool
  | .bare text => lower text == "↔"
  | .pair key _ => lower key == "gap"

/-- A token that gives the required value, be it one that can be read or not. -/
def gives : Required → Token → Bool
  | .width => givesSize .width
  | .height => givesSize .height
  | .flow => givesFlow
  | .alignment => givesAlignment
  | .gap => givesGap

theorem isItemOf_bare (d : Dimension) (text : Text) :
    isItemOf d (.bare text) = ((Dimension.ofItem? text).map (·.1) == some d) := by
  rw [isItemOf, Bool.eq_iff_iff]
  simp [Option.isSome_iff_exists, Dimension.ofItem?_eq_some_iff]

theorem isItemOf_pair (d : Dimension) (key value : Text) :
    isItemOf d (.pair key value) = (Dimension.ofKey? (lower key) == some d) := by
  rw [isItemOf, Bool.eq_iff_iff]
  simp [Dimension.ofKey?_eq_some_iff]

/-! ## Tokens by family -/

theorem isSome_ofText?_lower_iff {text : Text} :
    (Alignment.ofText? (lower text)).isSome ↔ lower (trim text) ∈ alignmentWords := by
  constructor
  · intro h
    rw [Alignment.ofText?, trim_lower, lower_lower, List.lookup_isSome_iff] at h
    obtain ⟨entry, he, hword⟩ := h
    exact List.mem_map.2 ⟨entry, he, (eq_of_beq hword).symm⟩
  · intro h
    obtain ⟨a, ha⟩ := ofText?_lower_of_mem h
    rw [ha]
    rfl

theorem ite_ne {c : Prop} [Decidable c] {f g h : Family} (hg : g ≠ f) (hh : h ≠ f) :
    (if c then g else h) ≠ f :=
  iteInduction (motive := (· ≠ f)) (fun _ => hg) fun _ => hh

theorem bareFamily_eq_flow_iff {text : Text} :
    bareFamily text = .flow ↔ lower text = "↓" ∨ lower text = "→" ∨ lower text = "↵" := by
  constructor
  · contrapose
    intro other
    unfold bareFamily
    dsimp only
    rw [if_neg other]
    exact ite_ne nofun (ite_ne nofun (ite_ne nofun (ite_ne nofun (ite_ne nofun (ite_ne nofun
      nofun)))))
  · rintro (h | h | h)
    all_goals
      unfold bareFamily
      rw [h]
      rfl

theorem bareFamily_eq_gap_iff {text : Text} : bareFamily text = .gap ↔ lower text = "↔" := by
  constructor
  · contrapose
    intro other
    unfold bareFamily
    dsimp only
    rw [if_neg other]
    exact ite_ne nofun (ite_ne nofun (ite_ne nofun (ite_ne nofun (ite_ne nofun (ite_ne nofun
      nofun)))))
  · intro h
    unfold bareFamily
    rw [h]
    rfl

/-- No other word that stands bare is a cell of the grid. -/
theorem bareFamily_eq_alignment_iff {text : Text} :
    bareFamily text = .alignment ↔ lower (trim text) ∈ alignmentWords := by
  rw [← isSome_ofText?_lower_iff]
  constructor
  · contrapose
    intro other
    unfold bareFamily
    dsimp only
    rw [if_neg other]
    exact ite_ne nofun (ite_ne nofun (ite_ne nofun (ite_ne nofun (ite_ne nofun (ite_ne nofun
      nofun)))))
  · intro aligned
    have plain : lower text ∉ plainWords := by
      have apart : ∀ w ∈ plainWords, trim w ∉ alignmentWords := by decide
      intro hword
      exact apart _ hword (by rw [trim_lower]; exact isSome_ofText?_lower_iff.1 aligned)
    simp only [plainWords, sharedWords, arrows, List.mem_append, List.mem_cons, List.not_mem_nil,
      or_false, not_or] at plain
    simp only [bareFamily, plain, aligned, or_self, if_false, if_true]

theorem keyFamily_eq_flow_iff {key : Text} : keyFamily key = .flow ↔ key = "flow" := by
  constructor
  · contrapose
    intro other
    unfold keyFamily
    rw [if_neg other]
    exact ite_ne nofun (ite_ne nofun (ite_ne nofun (ite_ne nofun (ite_ne nofun (ite_ne nofun
      (ite_ne nofun (ite_ne nofun nofun)))))))
  · rintro rfl
    rfl

theorem keyFamily_eq_alignment_iff {key : Text} :
    keyFamily key = .alignment ↔ key = "align" ∨ key = "alignment" := by
  constructor
  · contrapose
    intro other
    unfold keyFamily
    rw [if_neg other]
    exact ite_ne nofun (ite_ne nofun (ite_ne nofun (ite_ne nofun (ite_ne nofun (ite_ne nofun
      (ite_ne nofun (ite_ne nofun nofun)))))))
  · rintro (rfl | rfl) <;> rfl

theorem keyFamily_eq_gap_iff {key : Text} : keyFamily key = .gap ↔ key = "gap" := by
  constructor
  · contrapose
    intro other
    unfold keyFamily
    rw [if_neg other]
    exact ite_ne nofun (ite_ne nofun (ite_ne nofun (ite_ne nofun (ite_ne nofun (ite_ne nofun
      (ite_ne nofun (ite_ne nofun nofun)))))))
  · rintro rfl
    rfl

theorem keyFamily_ne_dimensions {key : Text} (single : ¬ (key = "dimensions" ∨ key = "size"))
    (h : Dimension.ofKey? key = none) : keyFamily key ≠ .dimensions := by
  have other : ¬ (Dimension.ofKey? key).isSome := by
    rw [h]
    exact Bool.false_ne_true
  unfold keyFamily
  rw [if_neg single, if_neg other]
  exact ite_ne nofun (ite_ne nofun (ite_ne nofun (ite_ne nofun (ite_ne nofun (ite_ne nofun
    (ite_ne nofun nofun))))))

theorem modeFamily_ne {f : Family} (marker : f ≠ .marker) (other : f ≠ .otherMode) (value : Text) :
    modeFamily value ≠ f :=
  ite_ne marker.symm other.symm

theorem keyFamily_mode : keyFamily "mode" = .unknown := by decide

/-- A family other than those of a mode is that of the key of a pair. -/
theorem family_pair_eq_iff {f : Family} (marker : f ≠ .marker) (other : f ≠ .otherMode)
    (unknown : f ≠ .unknown) {key value : Text} :
    family (.pair key value) = f ↔ keyFamily (lower key) = f := by
  rw [family]
  by_cases h : lower key = "mode"
  · rw [if_pos h, h, keyFamily_mode]
    exact iff_of_false (modeFamily_ne marker other value) unknown.symm
  · rw [if_neg h]

theorem givesFlow_iff (t : Token) : givesFlow t ↔ family t = .flow := by
  cases t with
  | bare text => simp [givesFlow, family, bareFamily_eq_flow_iff, or_assoc]
  | pair key value =>
    rw [family_pair_eq_iff (by decide) (by decide) (by decide), keyFamily_eq_flow_iff]
    exact beq_iff_eq

theorem givesAlignment_iff (t : Token) : givesAlignment t ↔ family t = .alignment := by
  cases t with
  | bare text => simp [givesAlignment, family, bareFamily_eq_alignment_iff]
  | pair key value =>
    rw [family_pair_eq_iff (by decide) (by decide) (by decide), keyFamily_eq_alignment_iff]
    simp [givesAlignment]

theorem givesGap_iff (t : Token) : givesGap t ↔ family t = .gap := by
  cases t with
  | bare text => simp [givesGap, family, bareFamily_eq_gap_iff]
  | pair key value =>
    rw [family_pair_eq_iff (by decide) (by decide) (by decide), keyFamily_eq_gap_iff]
    exact beq_iff_eq

/-! ## What an entry gives -/

namespace Entry

/-- A value for the dimension, whatever it is. -/
def isSizeOf (d : Dimension) : Entry → Bool
  | .size _ d' _ => d' == d
  | _ => false

/-- An entry that gives the required value: flow, alignment and gap have families of their own. -/
def gives : Required → Entry → Bool
  | .width, e => e.isSizeOf .width
  | .height, e => e.isSizeOf .height
  | .flow, e => e.family == .flow
  | .alignment, e => e.family == .alignment
  | .gap, e => e.family == .gap

theorem isSizeOf_ofDimensionItem (d : Dimension) (i : Token) :
    (ofDimensionItem i).isSizeOf d = isItemOf d i := by
  cases i with
  | bare text =>
    rw [isItemOf_bare]
    simp only [ofDimensionItem]
    cases Dimension.ofItem? text with
    | none => rfl
    | some item => rfl
  | pair key value =>
    rw [isItemOf_pair]
    simp only [ofDimensionItem]
    cases Dimension.ofKey? (lower key) with
    | none => rfl
    | some d' => rfl

/-- An item of a dimension is read as one where it stands alone as well. -/
theorem ofBare_of_item {text v : Text} {d : Dimension} (h : Dimension.ofItem? text = some (d, v)) :
    ofBare text = .size (.bare text) d v := by
  have own : (ofBare text).family = .dimensions :=
    (family_ofBare text).trans (family_of_item (by rw [h]; rfl))
  unfold ofBare at own ⊢
  dsimp only at own ⊢
  split_ifs at own ⊢ with marker clip flow gap
  · cases own
  · cases own
  · cases own
  · cases own
  · rw [h] at own ⊢
    cases hs : Setting.ofName? (lower text) none with
    | some setting => rw [hs] at own; cases own
    | none =>
      rw [hs] at own
      cases ha : Alignment.ofText? (lower text) with
      | some a => rw [ha] at own; cases own
      | none => rfl

theorem isSizeOf_ofBare (d : Dimension) (text : Text) :
    (ofBare text).isSizeOf d = isItemOf d (.bare text) := by
  rw [isItemOf_bare]
  cases h : Dimension.ofItem? text with
  | some item => rw [ofBare_of_item h]; rfl
  | none =>
    unfold ofBare
    dsimp only
    split_ifs
    · rfl
    · rfl
    · rfl
    · rfl
    · rw [h]
      cases Setting.ofName? (lower text) none with
      | some setting => rfl
      | none => cases Alignment.ofText? (lower text) <;> rfl

/-- A key of the dimensions is read as one wherever it stands. -/
theorem ofPair_of_key {t : Token} {key value : Text} {d : Dimension}
    (h : Dimension.ofKey? key = some d) : ofPair t key value = [.size t d value] := by
  rcases Dimension.ofKey?_eq_some_iff.1 h with rfl | rfl
  · cases d <;> rfl
  · cases d <;> rfl

theorem family_of_isSizeOf {d : Dimension} {e : Entry} (h : e.isSizeOf d) :
    e.family = .dimensions := by
  cases e with
  | size token d' value => rfl
  | _ => cases h

theorem any_isSizeOf_ofPair (d : Dimension) (t : Token) {key value : Text}
    (single : ¬ (key = "dimensions" ∨ key = "size")) :
    (ofPair t key value).any (isSizeOf d) = (Dimension.ofKey? key == some d) := by
  cases h : Dimension.ofKey? key with
  | some d' =>
    rw [ofPair_of_key h, List.any_cons, List.any_nil, Bool.or_false]
    rfl
  | none =>
    refine List.any_eq_false.2 fun e he hsize => ?_
    have own := family_of_mem_ofPair he
    rw [family_of_isSizeOf hsize] at own
    split at own
    · exact modeFamily_ne (by decide) (by decide) value own.symm
    · exact keyFamily_ne_dimensions single h own.symm

/-- The entries of a token have values for the dimensions that the token gives. -/
theorem any_isSizeOf_ofToken (d : Dimension) (t : Token) :
    (ofToken t).any (isSizeOf d) = givesSize d t := by
  cases t with
  | bare text => simp [ofToken, givesSize, dimensionItems, isSizeOf_ofBare]
  | pair key value =>
    by_cases group : lower key = "dimensions" ∨ lower key = "size"
    · have mode : lower key ≠ "mode" := by
        rcases group with h | h <;> rw [h] <;> decide
      rw [ofToken, ofPair, if_neg mode, if_pos group, givesSize, dimensionItems, if_pos group,
        List.any_map]
      exact congrArg (fun p => List.any _ p) (funext (isSizeOf_ofDimensionItem d))
    · rw [givesSize, dimensionItems, if_neg group, List.any_cons, List.any_nil, Bool.or_false,
        isItemOf_pair]
      exact any_isSizeOf_ofPair d (.pair key value) group

/-- Only a group of dimensions can be empty. -/
theorem ofToken_ne_nil {t : Token} (h : Layout.family t ≠ .dimensions) : ofToken t ≠ [] := by
  cases t with
  | bare text => exact List.cons_ne_nil _ _
  | pair key value =>
    have single : ¬ (lower key = "dimensions" ∨ lower key = "size") := by
      intro group
      have mode : lower key ≠ "mode" := by
        rcases group with h | h <;> rw [h] <;> decide
      exact h (by rw [Layout.family, if_neg mode, keyFamily, if_pos group])
    have branch {c : Prop} [Decidable c] {e : Entry} {es : List Entry} (h : es ≠ []) :
        (if c then [e] else es) ≠ [] :=
      iteInduction (motive := (· ≠ [])) (fun _ => List.cons_ne_nil _ _) fun _ => h
    unfold ofToken ofPair
    dsimp only
    rw [if_neg single]
    exact branch (branch (branch (branch (branch (branch (branch (branch
      (List.cons_ne_nil _ _))))))))

theorem any_family_ofToken {f : Family} (other : f ≠ .dimensions) (t : Token) :
    (ofToken t).any (·.family == f) = (Layout.family t == f) := by
  by_cases own : Layout.family t = f
  · obtain ⟨e, he⟩ := List.exists_mem_of_ne_nil _ (ofToken_ne_nil (own ▸ other))
    rw [own, beq_self_eq_true, List.any_eq_true]
    exact ⟨e, he, by rw [family_of_mem he, own, beq_self_eq_true]⟩
  · rw [beq_false_of_ne own, List.any_eq_false]
    intro e he
    rw [family_of_mem he]
    exact fun h => own (eq_of_beq h)

/-- The entries of a token give the required values that the token gives. -/
theorem any_gives_ofToken (v : Required) (t : Token) :
    (ofToken t).any (gives v) = Layout.gives v t := by
  cases v with
  | width => exact any_isSizeOf_ofToken .width t
  | height => exact any_isSizeOf_ofToken .height t
  | flow =>
    refine (any_family_ofToken (by decide) t).trans (Bool.eq_iff_iff.2 ?_)
    exact beq_iff_eq.trans (givesFlow_iff t).symm
  | alignment =>
    refine (any_family_ofToken (by decide) t).trans (Bool.eq_iff_iff.2 ?_)
    exact beq_iff_eq.trans (givesAlignment_iff t).symm
  | gap =>
    refine (any_family_ofToken (by decide) t).trans (Bool.eq_iff_iff.2 ?_)
    exact beq_iff_eq.trans (givesGap_iff t).symm

end Entry

/-! ## What has been seen -/

/-- Flow, alignment and gap are asked for in Auto layout only. -/
def Required.countsIn (mode : Mode) : Required → Bool
  | .width | .height => true
  | .flow | .alignment | .gap => mode == .auto

namespace State

/-- The required value was given by some token so far. -/
def seen (s : State) : Required → Bool
  | .width => s.widthSeen
  | .height => s.heightSeen
  | .flow => s.flowSeen
  | .alignment => s.alignmentSeen
  | .gap => s.gapSeen

variable {mode : Mode} (s : State) (v : Required)

theorem seen_see (token : Token) (d : Dimension) (value : Text) :
    (s.see d).seen v = (s.seen v || (Entry.size token d value).gives v) := by
  cases d <;> cases v <;> simp [see, seen, Entry.gives, Entry.isSizeOf, Entry.family]

theorem seen_setSize (d : Dimension) (value : Text) :
    (s.setSize d value).seen v = (s.see d).seen v := by
  unfold setSize
  dsimp only
  split <;> rfl

theorem seen_setSpacing (axis : Spacing) (value : Text) :
    (s.setSpacing axis value).seen v = s.seen v := by
  unfold setSpacing
  split <;> rfl

theorem seen_setFlow (value : Text) :
    (s.setFlow value).seen v = ({ s with flowSeen := true } : State).seen v := by
  unfold setFlow
  dsimp only
  split
  · rfl
  · split
    · rfl
    · split
      · unfold setWrap
        split <;> rfl
      · rfl

theorem seen_setAlignment (value : Text) :
    (s.setAlignment value).seen v = ({ s with alignmentSeen := true } : State).seen v := by
  unfold setAlignment
  dsimp only
  split
  · split <;> rfl
  · rfl

theorem seen_setGap (value : Text) :
    (s.setGap value).seen v = ({ s with gapSeen := true } : State).seen v := by
  unfold setGap
  dsimp only
  split
  · rfl
  · split <;> rfl

theorem seen_setPadding (i : Padding.Item) : (s.setPadding i).seen v = s.seen v := by
  unfold setPadding
  split
  · split <;> rfl
  · rfl

theorem seen_setSetting (i : Setting) : (s.setSetting i).seen v = s.seen v := by
  unfold setSetting
  split
  · split <;> rfl
  · rfl
  · rfl

theorem seen_applyAuto (token : Token) (a : AutoEntry) :
    (s.applyAuto a).seen v = (s.seen v || (Entry.auto token a).gives v) := by
  cases a with
  | flow value =>
    refine (s.seen_setFlow v value).trans ?_
    cases v <;> simp [seen, Entry.gives, Entry.isSizeOf, Entry.family, AutoEntry.family]
  | align value =>
    refine (s.seen_setAlignment v value).trans ?_
    cases v <;> simp [seen, Entry.gives, Entry.isSizeOf, Entry.family, AutoEntry.family]
  | gap value =>
    refine (s.seen_setGap v value).trans ?_
    cases v <;> simp [seen, Entry.gives, Entry.isSizeOf, Entry.family, AutoEntry.family]
  | settings items =>
    refine (kept_foldl (·.seen v) (fun s i => s.seen_setSetting v i) items s).trans ?_
    cases v <;> exact (Bool.or_false _).symm
  | padding items =>
    refine (kept_foldl (·.seen v) (fun s i => s.seen_setPadding v i) items s).trans ?_
    cases v <;> exact (Bool.or_false _).symm

theorem seen_apply (counts : v.countsIn mode) (e : Entry) :
    (s.apply mode e).seen v = (s.seen v || e.gives v) := by
  cases e with
  | marker | unclearClip => cases v <;> exact (Bool.or_false _).symm
  | unread u => cases v <;> cases u <;> exact (Bool.or_false _).symm
  | clip on => cases v <;> exact (Bool.or_false _).symm
  | size token d value =>
    unfold apply
    dsimp only
    split
    · next refused =>
      have bound : d.isBound := (Bool.and_eq_true_iff.1 refused).1
      cases d <;> cases v <;> first | exact (Bool.or_false _).symm | cases bound
    · exact (s.seen_setSize v d value).trans (s.seen_see v token d value)
  | spacing token axis value =>
    have none : (s.apply mode (.spacing token axis value)).seen v = s.seen v := by
      unfold apply
      dsimp only
      split
      · rfl
      · exact s.seen_setSpacing v axis value
    rw [none]
    cases v <;> exact (Bool.or_false _).symm
  | auto token a =>
    unfold apply
    dsimp only
    split
    · exact s.seen_applyAuto v token a
    · next other =>
      -- Width and height alone count here, and no entry of Auto layout gives them.
      cases v with
      | width | height => exact (Bool.or_false _).symm
      | _ => exact absurd (eq_of_beq counts) other

theorem seen_step (counts : v.countsIn mode) (t : Token) :
    (s.step mode t).seen v = (s.seen v || gives v t) := by
  rw [← Entry.any_gives_ofToken]
  exact seen_foldl (·.seen v) (fun s e => s.seen_apply v counts e) (Entry.ofToken t) s

end State

theorem seen_run (r : Resolution) {v : Required} (counts : v.countsIn r.mode) :
    (run r).seen v = r.tokens.any (gives v) := by
  refine (seen_foldl (fun s : State => s.seen v) (fun s t => s.seen_step v counts t) _ _).trans ?_
  cases v <;> rfl

/-! ## The end -/

/-- The errors about the required values that were not seen. -/
def missing (mode : Mode) (seen : Required → Bool) : List Error :=
  (match seen .width, seen .height with
    | false, false => [.missingDimensions]
    | false, true => [.missingWidth]
    | true, false => [.missingHeight]
    | true, true => []) ++
  if mode = .auto ∧ seen .flow = false then [.missingFlow] else []

/-- The warnings about the values that Auto layout supplies. -/
def supplied (mode : Mode) (seen : Required → Bool) : List Warning :=
  if mode = .auto then
    (if seen .alignment then [] else [.noAlignment]) ++ if seen .gap then [] else [.noGap]
  else []

namespace State

variable (s : State)

theorem warnings_resolveAlignment : s.resolveAlignment.draft.warnings = s.draft.warnings := by
  unfold resolveAlignment
  cases s.justifyClass? <;> cases s.itemsClass? <;> rfl

theorem warnings_setDisplay : s.setDisplay.draft.warnings = s.draft.warnings := by
  unfold setDisplay
  split <;> rfl

theorem finish_of_ne_auto {mode : Mode} (h : mode ≠ .auto) : s.finish mode = s.checkSize := if_neg h

theorem errors_checkSize : s.checkSize.draft.errors = s.draft.errors ++ missing .standard s.seen := by
  unfold checkSize missing seen
  cases s.widthSeen <;> cases s.heightSeen <;> simp [error]

theorem warnings_checkSize : s.checkSize.draft.warnings = s.draft.warnings := by
  unfold checkSize
  split <;> rfl

theorem seen_checkSize : s.checkSize.seen = s.seen := by
  unfold checkSize
  split <;> rfl

theorem errors_checkAuto : s.checkAuto.draft.errors =
    s.draft.errors ++ if s.seen .flow then [] else [.missingFlow] := by
  cases hf : s.flowSeen <;> cases ha : s.alignmentSeen <;> cases hg : s.gapSeen <;>
    simp [checkAuto, error, warn, seen, hf, ha, hg]

theorem warnings_checkAuto :
    s.checkAuto.draft.warnings = s.draft.warnings ++ supplied .auto s.seen := by
  cases hf : s.flowSeen <;> cases ha : s.alignmentSeen <;> cases hg : s.gapSeen <;>
    simp [checkAuto, error, warn, Draft.error, Draft.warn, supplied, seen, hf, ha, hg]

/-- The end of a layout adds the errors about what is missing. -/
theorem errors_finish (mode : Mode) :
    (s.finish mode).draft.errors = s.draft.errors ++ missing mode s.seen := by
  by_cases hm : mode = .auto
  · rw [finish, if_pos hm, errors_setDisplay, errors_checkAuto, errors_checkSize,
      errors_resolveAlignment, seen_checkSize]
    show s.draft.errors ++ missing .standard s.seen ++ (if s.seen .flow then [] else _) = _
    cases hf : s.seen .flow <;> simp [missing, hm, hf]
  · rw [s.finish_of_ne_auto hm, errors_checkSize]
    simp [missing, hm]

/-- The end of a layout adds the warnings about what it supplies. -/
theorem warnings_finish (mode : Mode) :
    (s.finish mode).draft.warnings = s.draft.warnings ++ supplied mode s.seen := by
  by_cases hm : mode = .auto
  · rw [finish, if_pos hm, warnings_setDisplay, warnings_checkAuto, warnings_checkSize,
      warnings_resolveAlignment, seen_checkSize, hm]
    rfl
  · rw [s.finish_of_ne_auto hm, warnings_checkSize, supplied, if_neg hm, List.append_nil]

end State

namespace State

variable {mode : Mode} {s s' : State}

/-- A change adds one error at most, which is not about a missing value. -/
theorem Change.errors (h : s.Change mode s') : s'.draft.errors = s.draft.errors ∨
    ∃ e, e.isMissing = false ∧ s'.draft.errors = s.draft.errors ++ [e] := by
  cases h with
  | refused h => exact .inr ⟨_, h, rfl⟩
  | flowRefused _ h => exact .inr ⟨_, h, rfl⟩
  | sizeRefused => exact .inr ⟨_, rfl, congrArg (·.errors ++ _) (s.draft_see _)⟩
  | alignmentRefused | gapRefused => exact .inr ⟨_, rfl, rfl⟩
  | size => exact .inl ((Draft.errors_put _ _ _ _).trans (congrArg (·.errors) (s.draft_see _)))
  | spacing | row | gap => exact .inl (Draft.errors_put _ _ _ _)
  | column => exact .inl ((Draft.errors_put _ _ _ _).trans (Draft.errors_discard _ _ _))
  | padding => exact .inl ((Draft.errors_put _ _ _ _).trans (s.errors_replacePadding _))
  | clip on => cases on <;> exact .inl rfl
  | alignment _ h =>
    left
    simp only [setAlignment, h]
    split <;> rfl
  | warned | wrap | gapBetween | baseline => exact .inl rfl

/-- A change gives no warning about what holds where a value is not given. -/
theorem Change.noted_isDefault (h : s.Change mode s') :
    s'.draft.noted Warning.isDefault = s.draft.noted Warning.isDefault := by
  cases h with
  | warned h => exact Draft.noted_warn_of_neg _ h
  | size => exact (Draft.noted_put _ _ _ rfl).trans (congrArg _ (s.draft_see _))
  | sizeRefused => exact (Draft.noted_error _ _).trans (congrArg _ (s.draft_see _))
  | spacing | row | gap => exact Draft.noted_put _ _ _ rfl
  | column => exact (Draft.noted_put _ _ _ rfl).trans (Draft.noted_discard _ _ rfl)
  | padding => exact (Draft.noted_put _ _ _ rfl).trans (s.noted_replacePadding fun _ => rfl)
  | clip on => cases on <;> rfl
  | alignment _ h =>
    simp only [setAlignment, h]
    split
    · exact Draft.noted_warn_of_neg _ rfl
    · rfl
  | refused | flowRefused | alignmentRefused | gapRefused | wrap | gapBetween | baseline => rfl

end State

/-- No token reports a value as missing: that is left to the end. -/
theorem missing_run (r : Resolution) : (run r).draft.errors.filter Error.isMissing = [] := by
  refine run_invariant (P := fun s => s.draft.errors.filter Error.isMissing = []) rfl ?_
  intro s s' none hc
  rcases hc.errors with same | ⟨e, he, added⟩
  · rw [same, none]
  · rw [added, List.filter_append, none, List.filter_cons_of_neg (by simp [he])]
    rfl

/-- No token says what holds where a value is not given: that is left to the end. -/
theorem supplied_run (r : Resolution) : (run r).draft.noted Warning.isDefault = [] := by
  refine run_invariant (P := fun s => s.draft.noted Warning.isDefault = []) ?_ ?_
  · cases r.advice <;> rfl
  · intro s s' none hc
    rw [hc.noted_isDefault, none]

/-! ## Reports -/

/-- The errors about missing values. -/
def missings : List Error := [.missingDimensions, .missingWidth, .missingHeight, .missingFlow]

theorem mem_missings {e : Error} (h : e.isMissing) : e ∈ missings := by
  cases e with
  | missingDimensions | missingWidth | missingHeight | missingFlow => decide
  | _ => cases h

theorem head?_message_of_not_isMissing {e : Error} (h : e.isMissing = false) :
    e.message.head? ≠ some 'm' := by
  cases e with
  | autoOnly | standardOnly => exact (by decide : some '\'' ≠ some 'm')
  | wrapWithoutRow => exact (by decide : some 'w' ≠ some 'm')
  | missingDimensions | missingWidth | missingHeight | missingFlow => cases h
  | _ => exact (by decide : some 'i' ≠ some 'm')

/-- A missing value has a message of its own. -/
theorem Error.message_eq_iff_of_isMissing {err : Error} (h : err.isMissing) (e : Error) :
    e.message = err.message ↔ e = err :=
  Draft.message_eq_iff_of_kind (q := fun m => m.head? = some 'm') mem_missings (by decide)
    head?_message_of_not_isMissing (by decide +kernel) h e

/-- How the warnings begin about the values that are supplied. -/
def suppliedLeads : List Text := ["no al", "no ga"]

theorem take_message_of_not_isDefault {w : Warning} (h : w.isDefault = false) :
    w.message.take 5 ∉ suppliedLeads := by
  cases w with
  | advice a => cases a <;> decide
  | superseded k =>
    cases k with
    | size d => cases d <;> decide
    | spacing axis => cases axis <;> decide
    | padding kind => cases kind <;> decide
    | _ => decide
  | unread u =>
    cases u with
    | token => exact (by decide : "unrec".toList ∉ suppliedLeads)
    | dimension => exact (by decide : "unrec".toList ∉ suppliedLeads)
    | _ => exact (by decide : "unkno".toList ∉ suppliedLeads)
  | wrapRemoved => decide
  | paddingReplaced kind => cases kind <;> exact (by decide : "paddi".toList ∉ suppliedLeads)
  | unknownPadding | unknownSetting => exact (by decide : "unkno".toList ∉ suppliedLeads)
  | unsupportedSetting => exact (by decide : "setti".toList ∉ suppliedLeads)
  | noAlignment | noGap => cases h

/-- A value that is supplied has a message of its own. -/
theorem Warning.message_eq_iff_of_isDefault {warning : Warning} (h : warning.isDefault)
    (w : Warning) : w.message = warning.message ↔ w = warning := by
  have complete {w : Warning} (h : w.isDefault) : w ∈ [.noAlignment, .noGap] := by
    cases w with
    | noAlignment | noGap => decide
    | _ => cases h
  exact Draft.message_eq_iff_of_kind (q := fun m => m.take 5 ∈ suppliedLeads) complete (by decide)
    take_message_of_not_isDefault (by decide +kernel) h w

/-- The lines about missing values are those of the values that were not seen. -/
theorem mem_errors_read_iff (input : Option Text) {err : Error} (h : err.isMissing) :
    Property.layout.name ++ ": " ++ err.message ∈ (read input).report.errors ↔
      err ∈ missing (Mode.resolve input).mode (run (Mode.resolve input)).seen := by
  generalize hr : Mode.resolve input = r
  have none : err ∉ (run r).draft.errors := fun he =>
    List.filter_eq_nil_iff.1 (missing_run r) err he h
  rw [read, hr, Draft.mem_errors_report_iff]
  simp only [Error.message_eq_iff_of_isMissing h, exists_eq_right, State.errors_finish,
    List.mem_append, none, false_or]

theorem mem_warnings_read_iff (input : Option Text) {warning : Warning}
    (h : warning.isDefault) :
    Property.layout.name ++ ": " ++ warning.message ∈ (read input).report.warnings ↔
      warning ∈ supplied (Mode.resolve input).mode (run (Mode.resolve input)).seen := by
  generalize hr : Mode.resolve input = r
  have none : warning ∉ (run r).draft.warnings := fun hw =>
    List.filter_eq_nil_iff.1 (supplied_run r) warning hw h
  rw [read, hr, Draft.mem_warnings_report_iff]
  simp only [Warning.message_eq_iff_of_isDefault h, exists_eq_right, State.warnings_finish,
    List.mem_append, none, false_or]

section

variable (mode : Mode) (seen : Required → Bool)

theorem missingDimensions_mem_missing : .missingDimensions ∈ missing mode seen ↔
    seen .width = false ∧ seen .height = false := by
  unfold missing
  cases seen .width <;> cases seen .height <;> simp

theorem missingWidth_mem_missing : .missingWidth ∈ missing mode seen ↔
    seen .width = false ∧ seen .height = true := by
  unfold missing
  cases seen .width <;> cases seen .height <;> simp

theorem missingHeight_mem_missing : .missingHeight ∈ missing mode seen ↔
    seen .width = true ∧ seen .height = false := by
  unfold missing
  cases seen .width <;> cases seen .height <;> simp

theorem missingFlow_mem_missing : .missingFlow ∈ missing mode seen ↔
    mode = .auto ∧ seen .flow = false := by
  unfold missing
  cases seen .width <;> cases seen .height <;> simp

theorem noAlignment_mem_supplied : .noAlignment ∈ supplied mode seen ↔
    mode = .auto ∧ seen .alignment = false := by
  unfold supplied
  cases seen .alignment <;> cases seen .gap <;> simp

theorem noGap_mem_supplied : .noGap ∈ supplied mode seen ↔
    mode = .auto ∧ seen .gap = false := by
  unfold supplied
  cases seen .alignment <;> cases seen .gap <;> simp

end

/-! ### Their lines -/

def dimensionsMissing : Text := "layout: missing dimensions; width and height are required"

def widthMissing : Text := "layout: missing width"

def heightMissing : Text := "layout: missing height"

def flowMissing : Text := "layout: missing flow; Auto layout requires one"

def alignmentSupplied : Text := "layout: no alignment given; children align top-left"

def gapSupplied : Text := "layout: no gap given; defaults to 0"

/-- What a report says of the required values of a layout, given the mode and the tokens that the
resolution of the mode leaves. -/
structure ReportsRequired (r : Resolution) (report : Report) : Prop where
  width : widthMissing ∈ report.errors ∨ dimensionsMissing ∈ report.errors ↔
    ¬ ∃ t ∈ r.tokens, gives .width t
  height : heightMissing ∈ report.errors ∨ dimensionsMissing ∈ report.errors ↔
    ¬ ∃ t ∈ r.tokens, gives .height t
  /-- One message for both values stands instead of one for each. -/
  dimensions : dimensionsMissing ∈ report.errors ↔
    (¬ ∃ t ∈ r.tokens, gives .width t) ∧ ¬ ∃ t ∈ r.tokens, gives .height t
  instead : dimensionsMissing ∈ report.errors →
    widthMissing ∉ report.errors ∧ heightMissing ∉ report.errors
  flow : flowMissing ∈ report.errors ↔ r.mode = .auto ∧ ¬ ∃ t ∈ r.tokens, gives .flow t
  alignment : alignmentSupplied ∈ report.warnings ↔
    r.mode = .auto ∧ ¬ ∃ t ∈ r.tokens, gives .alignment t
  gap : gapSupplied ∈ report.warnings ↔ r.mode = .auto ∧ ¬ ∃ t ∈ r.tokens, gives .gap t

theorem seen_run_eq_false_iff (r : Resolution) {v : Required} (counts : v.countsIn r.mode) :
    (run r).seen v = false ↔ ¬ ∃ t ∈ r.tokens, gives v t := by
  rw [seen_run r counts, Bool.eq_false_iff, ne_eq, List.any_eq_true]

theorem line_missingDimensions : Property.layout.name ++ ": " ++ Error.missingDimensions.message =
    dimensionsMissing := by decide +kernel

theorem line_missingWidth : Property.layout.name ++ ": " ++ Error.missingWidth.message =
    widthMissing := by decide +kernel

theorem line_missingHeight : Property.layout.name ++ ": " ++ Error.missingHeight.message =
    heightMissing := by decide +kernel

theorem line_missingFlow : Property.layout.name ++ ": " ++ Error.missingFlow.message =
    flowMissing := by decide +kernel

theorem line_noAlignment : Property.layout.name ++ ": " ++ Warning.noAlignment.message =
    alignmentSupplied := by decide +kernel

theorem line_noGap : Property.layout.name ++ ": " ++ Warning.noGap.message =
    gapSupplied := by decide +kernel

theorem reportsRequired_read (input : Option Text) :
    ReportsRequired (Mode.resolve input) (read input).report := by
  have width := seen_run_eq_false_iff (Mode.resolve input) (show Required.countsIn _ .width from rfl)
  have height :=
    seen_run_eq_false_iff (Mode.resolve input) (show Required.countsIn _ .height from rfl)
  -- In Auto layout the other three count as well; elsewhere none of them is asked for.
  have auto {v : Required} (counts : (Mode.resolve input).mode = .auto → v.countsIn _) :
      (Mode.resolve input).mode = .auto ∧ (run (Mode.resolve input)).seen v = false ↔
        (Mode.resolve input).mode = .auto ∧ ¬ ∃ t ∈ (Mode.resolve input).tokens, gives v t :=
    and_congr_right fun h => seen_run_eq_false_iff _ (counts h)
  have error := fun err h => mem_errors_read_iff input (show Error.isMissing err from h)
  have warning := fun w h => mem_warnings_read_iff input (show Warning.isDefault w from h)
  have noDimensions := (error .missingDimensions rfl).trans (missingDimensions_mem_missing ..)
  have noWidth := (error .missingWidth rfl).trans (missingWidth_mem_missing ..)
  have noHeight := (error .missingHeight rfl).trans (missingHeight_mem_missing ..)
  have noFlow := (error .missingFlow rfl).trans (missingFlow_mem_missing ..)
  have noAlignment := (warning .noAlignment rfl).trans (noAlignment_mem_supplied ..)
  have noGap := (warning .noGap rfl).trans (noGap_mem_supplied ..)
  rw [line_missingDimensions] at noDimensions
  rw [line_missingWidth] at noWidth
  rw [line_missingHeight] at noHeight
  rw [line_missingFlow] at noFlow
  rw [line_noAlignment] at noAlignment
  rw [line_noGap] at noGap
  refine ⟨?_, ?_, ?_, ?_, ?_, ?_, ?_⟩
  · rw [noWidth, noDimensions, ← width]
    cases (run (Mode.resolve input)).seen .width <;>
      cases (run (Mode.resolve input)).seen .height <;> decide
  · rw [noHeight, noDimensions, ← height]
    cases (run (Mode.resolve input)).seen .width <;>
      cases (run (Mode.resolve input)).seen .height <;> decide
  · rw [noDimensions, width, height]
  · rw [noDimensions, noWidth, noHeight]
    rintro ⟨w, h⟩
    simp [w, h]
  · exact noFlow.trans (auto fun h => beq_iff_eq.2 h)
  · exact noAlignment.trans (auto fun h => beq_iff_eq.2 h)
  · exact noGap.trans (auto fun h => beq_iff_eq.2 h)

end Inspector.Layout
