import Inspector.Proofs.Layout.Vocabulary

/-!
# What each mode of a layout excludes

A layout has classes of its own mode only. In a Standard layout a token of Auto layout does nothing
but add one error, and so does each size bound in a group of dimensions; in an Auto layout a
spacing does nothing but add one error.

    isAutoOnly t → s.step .standard t = s.error (.autoOnly t)               (step_of_isAutoOnly)
    isStandardOnly t → s.step .auto t = s.error (.standardOnly t)       (step_of_isStandardOnly)
-/

namespace Inspector.Layout

open Text

/-! ## The tokens of one mode -/

def arrows : List Text := ["↓", "→", "↵", "↔"]

def settingNames : List Text := baselineNames ++ unsupportedNames

def alignmentWords : List Text := Alignment.table.map (·.1)

/-- The keys of Auto layout, those of settings and paddings aside. -/
def flexKeys : List Text := ["flow", "align", "alignment", "gap", "settings"]

def standardKeys : List Text := ["space-x", "horizontal-spacing", "space-y", "vertical-spacing"]

def bounds : List Dimension := [.minWidth, .maxWidth, .minHeight, .maxHeight]

/-- A lower or an upper bound of a size, by key or as an item such as `min-w-200px`. -/
def isBoundItem : Token → Bool
  | .bare text => bounds.any fun d => (afterWord? (d.short ++ "-") text).isSome
  | .pair key _ => bounds.any fun d => lower key == d.short || lower key == d.name

/-- A token that Auto layout alone knows. -/
def isAutoOnly (t : Token) : Bool :=
  isBoundItem t ||
    match t with
    | .bare text => (arrows ++ settingNames).contains (lower text) ||
      alignmentWords.contains (lower (trim text))
    | .pair key _ =>
      (flexKeys ++ settingNames ++ Padding.keys.map (·.1)).contains (lower key)

/-- A token that Standard layout alone knows. -/
def isStandardOnly : Token → Bool
  | .bare _ => false
  | .pair key _ => standardKeys.contains (lower key)

/-! ## Their entries -/

/-- An entry made from `t` that only Auto layout takes. -/
inductive AutoEntryOf (t : Token) : Entry → Prop
  | auto (a : AutoEntry) : AutoEntryOf t (.auto t a)
  | bound {d : Dimension} (hd : d.isBound) (value : Text) : AutoEntryOf t (.size t d value)

theorem apply_of_autoEntryOf {t : Token} {e : Entry} (h : AutoEntryOf t e) (s : State) :
    s.apply .standard e = s.error (.autoOnly t) := by
  cases h with
  | auto a => rfl
  | bound hd value => simp [State.apply, hd]

theorem isBound_of_mem_bounds {d : Dimension} (h : d ∈ bounds) : d.isBound := by
  revert d
  decide

theorem all_eq_bounds_append : Dimension.all = bounds ++ [.width, .height] := rfl

/-- An item of a bound is read as that of a bound, since bounds are looked for first. -/
theorem ofItem?_of_isBoundItem {text : Text} (h : isBoundItem (.bare text)) :
    ∃ d value, d.isBound ∧ Dimension.ofItem? text = some (d, value) := by
  let item (d : Dimension) : Option (Dimension × Text) :=
    (afterWord? (d.short ++ "-") text).map fun value => (d, value)
  have found : (bounds.findSome? item).isSome := by
    obtain ⟨d, hd, hs⟩ := List.any_eq_true.1 h
    rw [List.findSome?_isSome_iff]
    exact ⟨d, hd, by rwa [Option.isSome_map]⟩
  obtain ⟨i, hi⟩ := Option.isSome_iff_exists.1 found
  obtain ⟨d, hd, hdi⟩ := List.exists_of_findSome?_eq_some hi
  obtain ⟨value, -, rfl⟩ := Option.map_eq_some_iff.1 hdi
  refine ⟨d, value, isBound_of_mem_bounds hd, ?_⟩
  rw [Dimension.ofItem?, all_eq_bounds_append, List.findSome?_append, hi]
  rfl

/-- A key of a bound is read as that of a bound, since bounds are looked for first. -/
theorem ofKey?_of_isBoundItem {key value : Text} (h : isBoundItem (.pair key value)) :
    ∃ d, d.isBound ∧ Dimension.ofKey? (lower key) = some d := by
  have found := List.find?_isSome.2 (List.any_eq_true.1 h)
  obtain ⟨d, hd⟩ := Option.isSome_iff_exists.1 found
  refine ⟨d, isBound_of_mem_bounds (List.mem_of_find?_eq_some hd), ?_⟩
  rw [Dimension.ofKey?, all_eq_bounds_append, List.find?_append, hd]
  rfl

/-- The bare words that both modes know. -/
def sharedWords : List Text := ["auto", "standard", "clip", "clip-content"]

theorem isAutoOnly_bare_iff {text : Text} : isAutoOnly (.bare text) ↔
    isBoundItem (.bare text) ∨ lower text ∈ arrows ∨ lower text ∈ settingNames ∨
      lower (trim text) ∈ alignmentWords := by
  simp [isAutoOnly, or_assoc]

theorem isAutoOnly_pair_iff {key value : Text} : isAutoOnly (.pair key value) ↔
    isBoundItem (.pair key value) ∨ lower key ∈ flexKeys ∨ lower key ∈ settingNames ∨
      lower key ∈ Padding.keys.map (·.1) := by
  simp [isAutoOnly]

theorem lower_not_mem_sharedWords {text : Text} (h : isAutoOnly (.bare text)) :
    lower text ∉ sharedWords := by
  have noBound : ∀ d ∈ bounds, ∀ w ∈ sharedWords, ¬ lower (d.short ++ "-") <+: w := by decide
  have noWord : ∀ w ∈ sharedWords, w ∉ arrows ∧ w ∉ settingNames := by decide
  have noAlignment : ∀ w ∈ sharedWords, trim w ∉ alignmentWords := by decide
  intro hw
  rcases isAutoOnly_bare_iff.1 h with h | h | h | h
  · obtain ⟨d, hd, hs⟩ := List.any_eq_true.1 h
    obtain ⟨rest, hr⟩ := Option.isSome_iff_exists.1 hs
    exact noBound d hd _ hw ⟨lower rest, (lower_of_afterWord? hr).symm⟩
  · exact (noWord _ hw).1 h
  · exact (noWord _ hw).2 h
  · rw [← trim_lower] at h
    exact noAlignment _ hw h

theorem ofText?_lower_of_mem {text : Text} (h : lower (trim text) ∈ alignmentWords) :
    ∃ a, Alignment.ofText? (lower text) = some a := by
  obtain ⟨e, he, hw⟩ := List.mem_map.1 h
  rw [Alignment.ofText?, trim_lower, lower_lower, ← Option.isSome_iff_exists,
    List.lookup_isSome_iff]
  exact ⟨e, he, by simp [hw]⟩

theorem ofName?_of_mem {name : Text} (h : name ∈ settingNames) (value : Option Text) :
    ∃ i, Setting.ofName? name value = some i := by
  unfold Setting.ofName?
  split
  · exact ⟨_, rfl⟩
  · next hb =>
    rcases List.mem_append.1 h with h | h
    · exact absurd (List.contains_iff_mem.2 h) hb
    · exact ⟨_, if_pos (List.contains_iff_mem.2 h)⟩

/-- A bare token of Auto layout that is no arrow, setting or alignment is an item of a bound. -/
theorem isBoundItem_of_isAutoOnly {text : Text} (h : isAutoOnly (.bare text))
    (harrow : lower text ∉ arrows) (hs : Setting.ofName? (lower text) none = none)
    (ha : Alignment.ofText? (lower text) = none) : isBoundItem (.bare text) := by
  rcases isAutoOnly_bare_iff.1 h with h | h | h | h
  · exact h
  · exact absurd h harrow
  · obtain ⟨i, hi⟩ := ofName?_of_mem h none
    simp [hi] at hs
  · obtain ⟨a, hal⟩ := ofText?_lower_of_mem h
    simp [hal] at ha

theorem autoEntryOf_ofBare {text : Text} (h : isAutoOnly (.bare text)) :
    AutoEntryOf (.bare text) (Entry.ofBare text) := by
  have shared := lower_not_mem_sharedWords h
  unfold Entry.ofBare
  dsimp only
  split
  · next hw => exact absurd (by rcases hw with hw | hw <;> simp [hw, sharedWords]) shared
  · split
    · next hw => exact absurd (by rcases hw with hw | hw <;> simp [hw, sharedWords]) shared
    · split
      · exact .auto _
      · split
        · exact .auto _
        · next hflow hgap =>
          have harrow : lower text ∉ arrows := by
            simp only [arrows, List.mem_cons, List.not_mem_nil, or_false, not_or] at hflow ⊢
            exact ⟨hflow.1, hflow.2.1, hflow.2.2, hgap⟩
          split
          · exact .auto _
          · exact .auto _
          · next d value hs ha hi =>
            obtain ⟨d', v, hd, hv⟩ :=
              ofItem?_of_isBoundItem (isBoundItem_of_isAutoOnly h harrow hs ha)
            obtain ⟨rfl, rfl⟩ := Prod.mk.inj (Option.some.inj (hi.symm.trans hv))
            exact .bound hd _
          · next hs ha hi =>
            obtain ⟨d', v, -, hv⟩ :=
              ofItem?_of_isBoundItem (isBoundItem_of_isAutoOnly h harrow hs ha)
            simp [hi] at hv

/-- The keys that both modes know, and those of Standard layout. -/
def sharedKeys : List Text :=
  ["mode", "dimensions", "size", "clip", "clip-content", "space-y", "vertical-spacing", "space-x",
    "horizontal-spacing"]

theorem lower_not_mem_sharedKeys {key value : Text} (h : isAutoOnly (.pair key value)) :
    lower key ∉ sharedKeys := by
  have noBound : ∀ d ∈ bounds, d.short ∉ sharedKeys ∧ d.name ∉ sharedKeys := by decide
  have noKey : ∀ w ∈ sharedKeys,
      w ∉ flexKeys ∧ w ∉ settingNames ∧ w ∉ Padding.keys.map (·.1) := by decide
  intro hw
  rcases isAutoOnly_pair_iff.1 h with h | h | h | h
  · obtain ⟨d, hd, hs⟩ := List.any_eq_true.1 h
    rw [Bool.or_eq_true, beq_iff_eq, beq_iff_eq] at hs
    rcases hs with hs | hs
    · exact (noBound d hd).1 (hs ▸ hw)
    · exact (noBound d hd).2 (hs ▸ hw)
  · exact (noKey _ hw).1 h
  · exact (noKey _ hw).2.1 h
  · exact (noKey _ hw).2.2 h

/-- A pair of Auto layout whose key is no word of the layout itself. -/
theorem autoEntryOf_ofNamed {key value : Text} (h : isAutoOnly (.pair key value))
    (hflex : lower key ∉ flexKeys) :
    AutoEntryOf (.pair key value) (Entry.ofNamed (.pair key value) (lower key) value) := by
  have bound : Setting.ofName? (lower key) (some value) = none →
      Padding.ofKey? (lower key) = none → isBoundItem (.pair key value) := by
    intro hs hp
    rcases isAutoOnly_pair_iff.1 h with h | h | h | h
    · exact h
    · exact absurd h hflex
    · obtain ⟨i, hi⟩ := ofName?_of_mem h (some value)
      simp [hi] at hs
    · obtain ⟨e, he, hk⟩ := List.mem_map.1 h
      have := List.lookup_eq_none_iff.1 hp e he
      simp [hk] at this
  unfold Entry.ofNamed
  split
  · exact .auto _
  · exact .auto _
  · next d hs hp hd =>
    obtain ⟨d', hb, hd'⟩ := ofKey?_of_isBoundItem (bound hs hp)
    obtain rfl := Option.some.inj (hd.symm.trans hd')
    exact .bound hb _
  · next hs hp hd =>
    obtain ⟨d', -, hd'⟩ := ofKey?_of_isBoundItem (bound hs hp)
    simp [hd] at hd'

theorem autoEntryOf_ofPair {key value : Text} (h : isAutoOnly (.pair key value)) :
    ∃ e, Entry.ofPair (.pair key value) (lower key) value = [e] ∧
      AutoEntryOf (.pair key value) e := by
  have shared := lower_not_mem_sharedKeys h
  simp only [sharedKeys, List.mem_cons, List.not_mem_nil, or_false, not_or] at shared
  obtain ⟨hmode, hdim, hsize, hclip, hclip', hy, hy', hx, hx'⟩ := shared
  rw [Entry.ofPair, if_neg hmode, if_neg (not_or.2 ⟨hdim, hsize⟩),
    if_neg (not_or.2 ⟨hclip, hclip'⟩), if_neg (not_or.2 ⟨hy, hy'⟩),
    if_neg (not_or.2 ⟨hx, hx'⟩)]
  split
  · exact ⟨_, rfl, .auto _⟩
  · next hflow =>
    split
    · exact ⟨_, rfl, .auto _⟩
    · next halign =>
      split
      · exact ⟨_, rfl, .auto _⟩
      · next hgap =>
        split
        · exact ⟨_, rfl, .auto _⟩
        · next hsettings =>
          refine ⟨_, rfl, autoEntryOf_ofNamed h ?_⟩
          simp only [flexKeys, List.mem_cons, List.not_mem_nil, or_false, not_or] at halign ⊢
          exact ⟨hflow, halign.1, halign.2, hgap, hsettings⟩

theorem autoEntryOf_ofDimensionItem {t : Token} (h : isBoundItem t) :
    AutoEntryOf t (Entry.ofDimensionItem t) := by
  cases t with
  | bare text =>
    obtain ⟨d, value, hd, hi⟩ := ofItem?_of_isBoundItem h
    simp only [Entry.ofDimensionItem, hi]
    exact .bound hd value
  | pair key value =>
    obtain ⟨d, hd, hk⟩ := ofKey?_of_isBoundItem h
    simp only [Entry.ofDimensionItem, hk, Option.map_some]
    exact .bound hd value

/-! ## Tokens in the wrong mode -/

namespace State

variable (s : State)

/-- In a Standard layout a token of Auto layout adds one error and does nothing else. -/
theorem step_of_isAutoOnly {t : Token} (h : isAutoOnly t) :
    s.step .standard t = s.error (.autoOnly t) := by
  cases t with
  | bare text => exact apply_of_autoEntryOf (autoEntryOf_ofBare h) s
  | pair key value =>
    obtain ⟨e, he, ha⟩ := autoEntryOf_ofPair h
    rw [step, Entry.ofToken, he]
    exact apply_of_autoEntryOf ha s

/-- A group of dimensions is applied item by item. -/
theorem step_dimensions (mode : Mode) {key : Text}
    (h : lower key = "dimensions" ∨ lower key = "size") (value : Text) :
    s.step mode (.pair key value) =
      (tokenize (unwrapped value)).foldl (fun s t => s.apply mode (Entry.ofDimensionItem t)) s := by
  have hmode : lower key ≠ "mode" := by rcases h with h | h <;> simp [h]
  rw [step, Entry.ofToken, Entry.ofPair, if_neg hmode, if_pos h, List.foldl_map]

/-- In an Auto layout a spacing adds one error and does nothing else. -/
theorem step_of_isStandardOnly {t : Token} (h : isStandardOnly t) :
    s.step .auto t = s.error (.standardOnly t) := by
  cases t with
  | bare text => simp [isStandardOnly] at h
  | pair key value =>
    rw [isStandardOnly, List.contains_iff_mem] at h
    simp only [standardKeys, List.mem_cons, List.not_mem_nil, or_false] at h
    rcases h with h | h | h | h <;> simp [step, Entry.ofToken, Entry.ofPair, h, apply]

end State

/-! ## The modes -/

/-- The leads of the classes of a Standard layout, clipping aside. -/
def standardLeads : List Text := ["w-", "h-", "space-x-", "space-y-"]

theorem beginsWith_of_standard {k : Concern} {c : Text} (hk : k.isOf .standard)
    (hc : k.Spells c) : BeginsWith standardLeads c ∨ c = "overflow-hidden" := by
  have each : ∀ k ∈ Concern.all, k.isOf .standard →
      k = .clip ∨ BeginsWith standardLeads k.lead := by decide
  rcases each k k.mem_all hk with rfl | hlead
  · exact .inr hc
  · exact .inl (hlead.trans hc.lead)

theorem not_space_of_auto {k : Concern} {c : Text} (hk : k.isOf .auto) (hc : k.Spells c) :
    ¬ "space-".toList <+: c := by
  have each : ∀ k ∈ Concern.all, k.isOf .auto → apart [k.lead] ["space-"] := by decide
  intro h
  exact not_beginsWith_both (each k k.mem_all hk) (.of_mem List.mem_cons_self hc.lead)
    (.of_mem List.mem_cons_self h)

/-- A layout has classes of its own mode only. A token that the other mode alone knows adds one
error to whatever state it meets and changes nothing else, and so does each size bound in a group
of dimensions, which is applied item by item. -/
theorem modes_exclude_each_other (input : Option Text) (s : State) (t : Token) :
    ((read input).mode = .standard → ∀ c ∈ (read input).report.classes,
      BeginsWith ["w-", "h-", "space-x-", "space-y-"] c ∨ c = "overflow-hidden") ∧
    ((read input).mode = .auto → ∀ c ∈ (read input).report.classes, ¬ "space-".toList <+: c) ∧
    (isAutoOnly t → s.step .standard t =
      { s with draft := { s.draft with errors := s.draft.errors ++ [.autoOnly t] } }) ∧
    (∀ key value, lower key = "dimensions" ∨ lower key = "size" →
      s.step .standard (.pair key value) = (tokenize (unwrapped value)).foldl
        (fun s i => s.apply .standard (Entry.ofDimensionItem i)) s) ∧
    (isBoundItem t → s.apply .standard (Entry.ofDimensionItem t) =
      { s with draft := { s.draft with errors := s.draft.errors ++ [.autoOnly t] } }) ∧
    (isStandardOnly t → s.step .auto t =
      { s with draft := { s.draft with errors := s.draft.errors ++ [.standardOnly t] } }) := by
  refine ⟨fun hm c hc => ?_, fun hm c hc => ?_, s.step_of_isAutoOnly,
    fun key value h => s.step_dimensions .standard h value,
    fun h => apply_of_autoEntryOf (autoEntryOf_ofDimensionItem h) s, s.step_of_isStandardOnly⟩
  · obtain ⟨k, hk, hs⟩ := spelled_of_mem_read hc
    rw [hm] at hk
    exact beginsWith_of_standard hk hs
  · obtain ⟨k, hk, hs⟩ := spelled_of_mem_read hc
    rw [hm] at hk
    exact not_space_of_auto hk hs

/-- A gap in a Standard layout is one error and nothing else. -/
theorem standard_excludes_gap :
    (read (some "mode=standard,gap=2")).mode = .standard ∧ isAutoOnly (.pair "gap" "2") ∧
      State.step .standard {} (.pair "gap" "2") =
        { draft := { errors := [.autoOnly (.pair "gap" "2")] } } := by
  have gap : isAutoOnly (.pair "gap" "2") := by decide
  have h := modes_exclude_each_other (some "mode=standard,gap=2") {} (.pair "gap" "2")
  exact ⟨by decide, gap, h.2.2.1 gap⟩

end Inspector.Layout
