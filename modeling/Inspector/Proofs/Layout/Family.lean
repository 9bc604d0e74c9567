import Inspector.Proofs.Draft.Family
import Inspector.Proofs.Layout.Advice
import Inspector.Proofs.Layout.Modes

/-!
# The families of a layout's tokens

In a layout whose mode is settled a token is about the dimensions, the clipping, the spacing, the
flow, the alignment, the gap, the padding or the settings, or it is a marker of the mode, or it is
not known. The entries of a token are of the token's family, and so is every token that one of them
keeps for the message that refuses it: an item of a group of dimensions would be about the
dimensions if it stood alone.

    e ∈ Entry.ofToken t → e.family = family t                                  (family_of_mem)
    (Dimension.ofItem? text).isSome → family (.bare text) = .dimensions       (family_of_item)
    e ∈ Entry.ofToken t → e.KeepsFamily                                   (keepsFamily_of_mem)
-/

namespace Inspector.Layout

open Text

/-! ## Families -/

inductive Family where
  | dimensions
  | clip
  | spacing
  | flow
  | alignment
  | gap
  | padding
  | settings
  | marker
  /-- A mode that is not known. -/
  | otherMode
  | unknown
  deriving DecidableEq, Repr

/-- The family of a key in lower case, `mode` aside. -/
def keyFamily (key : Text) : Family :=
  if key = "dimensions" ∨ key = "size" then .dimensions
  else if key = "clip" ∨ key = "clip-content" then .clip
  else if key ∈ standardKeys then .spacing
  else if key = "flow" then .flow
  else if key = "align" ∨ key = "alignment" then .alignment
  else if key = "gap" then .gap
  else if key = "settings" ∨ key ∈ settingNames then .settings
  else if (Padding.ofKey? key).isSome then .padding
  else if (Dimension.ofKey? key).isSome then .dimensions
  else .unknown

/-- The family of a mode that is given by key. -/
def modeFamily (value : Text) : Family :=
  if sameWord value "auto" || sameWord value "standard" then .marker else .otherMode

/-- The family of a bare text. -/
def bareFamily (text : Text) : Family :=
  let word := lower text
  if word = "auto" ∨ word = "standard" then .marker
  else if word = "clip" ∨ word = "clip-content" then .clip
  else if word = "↓" ∨ word = "→" ∨ word = "↵" then .flow
  else if word = "↔" then .gap
  else if word ∈ settingNames then .settings
  else if (Alignment.ofText? word).isSome then .alignment
  else if (Dimension.ofItem? text).isSome then .dimensions
  else .unknown

/-- The family of a token. -/
def family : Token → Family
  | .bare text => bareFamily text
  | .pair key value => if lower key = "mode" then modeFamily value else keyFamily (lower key)

def AutoEntry.family : AutoEntry → Family
  | .flow _ => .flow
  | .align _ => .alignment
  | .gap _ => .gap
  | .settings _ => .settings
  | .padding _ => .padding

def Unread.family : Unread → Family
  | .key _ | .token _ => .unknown
  | .mode _ => .otherMode
  | .dimension _ => .dimensions

def Entry.family : Entry → Family
  | .marker => .marker
  | .clip _ | .unclearClip _ => .clip
  | .size _ _ _ => .dimensions
  | .spacing _ _ _ => .spacing
  | .auto _ a => a.family
  | .unread u => u.family

/-- What the box is displayed as is settled at the end only. -/
def Concern.family : Concern → Family
  | .size _ => .dimensions
  | .clip => .clip
  | .spacing _ => .spacing
  | .flow | .wrap | .display => .flow
  | .gap => .gap
  | .justify | .items => .alignment
  | .padding _ => .padding

/-- A token that the mode refuses is refused in its own family. -/
def Error.family : Error → Family
  | .autoOnly token => Layout.family token
  | .standardOnly _ | .invalidSpacing _ _ => .spacing
  | .invalidClip _ => .clip
  | .invalidSize _ _ | .missingDimensions | .missingWidth | .missingHeight => .dimensions
  | .wrapWithoutRow | .invalidFlow _ | .missingFlow => .flow
  | .invalidAlignment _ => .alignment
  | .invalidGap _ => .gap
  | .invalidPadding _ _ => .padding
  | .invalidSetting _ _ => .settings

def Superseded.family : Superseded → Family
  | .size _ => .dimensions
  | .spacing _ => .spacing
  | .flow => .flow
  | .alignment => .alignment
  | .gap => .gap
  | .padding _ => .padding

/-- The advice on the mode is given before any token. -/
def Warning.family : Warning → Family
  | .advice _ => .marker
  | .superseded k => k.family
  | .unread u => u.family
  | .wrapRemoved => .flow
  | .paddingReplaced _ _ | .unknownPadding _ => .padding
  | .unknownSetting _ | .unsupportedSetting _ => .settings
  | .noAlignment => .alignment
  | .noGap => .gap

def families : Families Concern Error Warning Family where
  ofConcern := Concern.family
  ofError := Error.family
  ofWarning := Warning.family

/-! ## The entries of a token -/

theorem ofName?_isSome_iff {name : Text} {value : Option Text} :
    (Setting.ofName? name value).isSome ↔ name ∈ settingNames := by
  unfold Setting.ofName? settingNames
  rw [List.mem_append]
  split_ifs with baseline unsupported <;> simp_all

theorem family_ofBare (text : Text) : (Entry.ofBare text).family = bareFamily text := by
  unfold Entry.ofBare bareFamily
  dsimp only
  split_ifs with marker clip flow gap setting alignment size
  · rfl
  · rfl
  · rfl
  · rfl
  · obtain ⟨i, hi⟩ := ofName?_of_mem setting none
    rw [hi]
    rfl
  all_goals
    have noSetting : Setting.ofName? (lower text) none = none := by
      rw [← Option.not_isSome_iff_eq_none, ofName?_isSome_iff]
      exact setting
    rw [noSetting]
  · obtain ⟨a, ha⟩ := Option.isSome_iff_exists.1 alignment
    rw [ha]
    rfl
  all_goals rw [Option.not_isSome_iff_eq_none.1 alignment]
  · obtain ⟨item, hi⟩ := Option.isSome_iff_exists.1 size
    rw [hi]
    rfl
  · rw [Option.not_isSome_iff_eq_none.1 size]
    rfl

theorem family_ofNamed (t : Token) {key value : Text}
    (own : keyFamily key =
      if key ∈ settingNames then .settings
      else if (Padding.ofKey? key).isSome then .padding
      else if (Dimension.ofKey? key).isSome then .dimensions
      else .unknown) :
    (Entry.ofNamed t key value).family = keyFamily key := by
  rw [own]
  unfold Entry.ofNamed
  split_ifs with setting padding dimension
  · obtain ⟨i, hi⟩ := ofName?_of_mem setting (some value)
    rw [hi]
    rfl
  all_goals
    have noSetting : Setting.ofName? key (some value) = none := by
      rw [← Option.not_isSome_iff_eq_none, ofName?_isSome_iff]
      exact setting
    rw [noSetting]
  · obtain ⟨kind, hk⟩ := Option.isSome_iff_exists.1 padding
    rw [hk]
    rfl
  all_goals rw [Option.not_isSome_iff_eq_none.1 padding]
  · obtain ⟨d, hd⟩ := Option.isSome_iff_exists.1 dimension
    rw [hd]
    rfl
  · rw [Option.not_isSome_iff_eq_none.1 dimension]
    rfl

theorem family_ofMode (value : Text) : (Entry.ofMode value).family = modeFamily value := by
  unfold Entry.ofMode modeFamily
  split <;> rfl

theorem family_ofClip (value : Text) : (Entry.ofClip value).family = .clip := by
  unfold Entry.ofClip
  split <;> rfl

theorem family_ofDimensionItem (t : Token) : (Entry.ofDimensionItem t).family = .dimensions := by
  unfold Entry.ofDimensionItem
  dsimp only
  split <;> rfl

theorem family_of_mem_ofPair {t : Token} {key value : Text} {e : Entry}
    (he : e ∈ Entry.ofPair t key value) :
    e.family = if key = "mode" then modeFamily value else keyFamily key := by
  have only {e' : Entry} (he' : e ∈ [e']) : e = e' := List.mem_singleton.1 he'
  unfold Entry.ofPair at he
  by_cases mode : key = "mode"
  · rw [if_pos mode] at he ⊢
    rw [only he, family_ofMode]
  rw [if_neg mode] at he ⊢
  by_cases dimensions : key = "dimensions" ∨ key = "size"
  · rw [if_pos dimensions] at he
    obtain ⟨i, -, rfl⟩ := List.mem_map.1 he
    rw [family_ofDimensionItem, keyFamily, if_pos dimensions]
  rw [if_neg dimensions] at he
  by_cases clip : key = "clip" ∨ key = "clip-content"
  · rw [if_pos clip] at he
    rw [only he, family_ofClip, keyFamily, if_neg dimensions, if_pos clip]
  rw [if_neg clip] at he
  by_cases y : key = "space-y" ∨ key = "vertical-spacing"
  · rw [if_pos y] at he
    rw [only he]
    rcases y with h | h <;> rw [h] <;> rfl
  rw [if_neg y] at he
  by_cases x : key = "space-x" ∨ key = "horizontal-spacing"
  · rw [if_pos x] at he
    rw [only he]
    rcases x with h | h <;> rw [h] <;> rfl
  rw [if_neg x] at he
  by_cases flow : key = "flow"
  · rw [if_pos flow] at he
    rw [only he, flow]
    rfl
  rw [if_neg flow] at he
  by_cases align : key = "align" ∨ key = "alignment"
  · rw [if_pos align] at he
    rw [only he]
    rcases align with h | h <;> rw [h] <;> rfl
  rw [if_neg align] at he
  by_cases gap : key = "gap"
  · rw [if_pos gap] at he
    rw [only he, gap]
    rfl
  rw [if_neg gap] at he
  by_cases settings : key = "settings"
  · rw [if_pos settings] at he
    rw [only he, settings]
    rfl
  rw [if_neg settings] at he
  have spacing : key ∉ standardKeys := by
    obtain ⟨⟨y, y'⟩, x, x'⟩ := And.intro (not_or.1 y) (not_or.1 x)
    simp only [standardKeys, List.mem_cons, List.not_mem_nil, or_false, not_or]
    exact ⟨x, x', y, y'⟩
  rw [only he]
  refine family_ofNamed t ?_
  simp only [keyFamily, if_neg dimensions, if_neg clip, if_neg spacing, if_neg flow, if_neg align,
    if_neg gap, settings, false_or]

/-- Every entry of a token is of the family of the token. -/
theorem family_of_mem {t : Token} {e : Entry} (he : e ∈ Entry.ofToken t) :
    e.family = family t := by
  cases t with
  | bare text => rw [List.mem_singleton.1 he, family_ofBare, family]
  | pair key value => exact family_of_mem_ofPair he

/-! ## Refusals -/

/-- How the items of the dimensions begin. -/
def itemLeads : List Text := Dimension.all.map fun d => d.short ++ "-"

/-- The bare words other than alignments. -/
def plainWords : List Text := sharedWords ++ arrows ++ settingNames

theorem beginsWith_of_ofItem? {text : Text} (h : (Dimension.ofItem? text).isSome) :
    BeginsWith itemLeads (lower text) ∧ BeginsWith itemLeads (trim (lower text)) := by
  have blank : isBlank '-' = false := by decide
  have short : ∀ d ∈ Dimension.all,
      lower (d.short ++ "-") = d.short ++ "-" ∧ trimLeft d.short = d.short := by decide
  obtain ⟨d, hd, hs⟩ := List.findSome?_isSome_iff.1 h
  rw [Option.isSome_map] at hs
  obtain ⟨rest, hr⟩ := Option.isSome_iff_exists.1 hs
  have mem : d.short ++ "-" ∈ itemLeads := List.mem_map_of_mem hd
  have lowered : lower text = d.short ++ "-" ++ lower rest := by
    rw [lower_of_afterWord? hr, (short d hd).1]
  refine ⟨⟨_, mem, lower rest, lowered.symm⟩, ⟨_, mem, trimRight (lower rest), ?_⟩⟩
  have split : lower text = d.short ++ '-' :: lower rest := by
    rw [lowered]
    simp
  rw [split, trim_append_cons blank, (short d hd).2]
  simp

/-- An item of the dimensions is about the dimensions when it stands alone as well. -/
theorem family_of_item {text : Text} (h : (Dimension.ofItem? text).isSome) :
    family (.bare text) = .dimensions := by
  obtain ⟨begins, trimmed⟩ := beginsWith_of_ofItem? h
  have plain : lower text ∉ plainWords := by
    intro hword
    have apart : apart itemLeads plainWords := by decide
    exact not_beginsWith_both apart begins ⟨_, hword, List.prefix_refl _⟩
  have noAlignment : (Alignment.ofText? (lower text)).isSome = false := by
    have apart : apart itemLeads alignmentWords := by decide
    rw [Bool.eq_false_iff]
    intro ha
    rw [Alignment.ofText?, trim_lower, lower_lower, ← trim_lower, List.lookup_isSome_iff] at ha
    obtain ⟨entry, he, hword⟩ := ha
    have word : trim (lower text) ∈ alignmentWords :=
      List.mem_map.2 ⟨entry, he, (eq_of_beq hword).symm⟩
    exact not_beginsWith_both apart trimmed ⟨_, word, List.prefix_refl _⟩
  simp only [plainWords, sharedWords, arrows, List.mem_append, List.mem_cons, List.not_mem_nil,
    or_false, not_or] at plain
  simp only [family, bareFamily, plain, noAlignment, h, or_self, if_false, if_true,
    Bool.false_eq_true]

/-- A key of the dimensions is about the dimensions wherever it stands. -/
theorem family_of_key {key value : Text} (h : (Dimension.ofKey? (lower key)).isSome) :
    family (.pair key value) = .dimensions := by
  have each : ∀ d ∈ Dimension.all, (d.short ≠ "mode" ∧ keyFamily d.short = .dimensions) ∧
      d.name ≠ "mode" ∧ keyFamily d.name = .dimensions := by decide
  obtain ⟨d, hd, hkey⟩ := List.find?_isSome.1 h
  obtain ⟨short, name⟩ := each d hd
  rw [Bool.or_eq_true, beq_iff_eq, beq_iff_eq] at hkey
  rcases hkey with hkey | hkey
  · rw [family, hkey, if_neg short.1, short.2]
  · rw [family, hkey, if_neg name.1, name.2]

namespace Entry

/-- The token that an entry keeps, if it keeps one, is `t`. -/
def Keeps (t : Token) : Entry → Prop
  | .size token _ _ | .spacing token _ _ | .auto token _ => token = t
  | .marker | .clip _ | .unclearClip _ | .unread _ => True

/-- The token that an entry keeps, for the message that refuses it, is of the entry's family. -/
def KeepsFamily : Entry → Prop
  | .size token _ _ => Layout.family token = .dimensions
  | .auto token a => Layout.family token = a.family
  | _ => True

theorem Keeps.keepsFamily {t : Token} {e : Entry} (h : e.Keeps t) (he : e.family = Layout.family t) :
    e.KeepsFamily := by
  cases e with
  | size token d value =>
    obtain rfl : token = t := h
    exact he.symm
  | auto token a =>
    obtain rfl : token = t := h
    exact he.symm
  | _ => trivial

theorem keeps_ofBare (text : Text) : (ofBare text).Keeps (.bare text) := by
  unfold ofBare
  dsimp only
  split_ifs
  · trivial
  · trivial
  · exact rfl
  · exact rfl
  · split
    · exact rfl
    · exact rfl
    · exact rfl
    · trivial

theorem keeps_ofNamed (t : Token) (key value : Text) : (ofNamed t key value).Keeps t := by
  unfold ofNamed
  split
  · exact rfl
  · exact rfl
  · exact rfl
  · trivial

theorem keepsFamily_ofDimensionItem (i : Token) : (ofDimensionItem i).KeepsFamily := by
  cases i with
  | bare text =>
    simp only [ofDimensionItem]
    split
    · next d value h => exact family_of_item (by rw [h]; rfl)
    · trivial
  | pair key value =>
    simp only [ofDimensionItem]
    split
    · next d value' h =>
      obtain ⟨d', hd, -⟩ := Option.map_eq_some_iff.1 h
      exact family_of_key (by rw [hd]; rfl)
    · trivial

/-- An entry keeps its token, but for the items of a group of dimensions. -/
theorem keeps_of_mem {t : Token} {e : Entry} (he : e ∈ ofToken t) :
    e.Keeps t ∨ ∃ i, e = ofDimensionItem i := by
  cases t with
  | bare text =>
    rw [List.mem_singleton.1 he]
    exact .inl (keeps_ofBare text)
  | pair key value =>
    let Kept (es : List Entry) : Prop :=
      ∀ e ∈ es, e.Keeps (.pair key value) ∨ ∃ i, e = ofDimensionItem i
    have one {e : Entry} (h : e.Keeps (.pair key value)) : Kept [e] := fun e' he' =>
      .inl (List.mem_singleton.1 he' ▸ h)
    have ite {c : Prop} [Decidable c] {es es' : List Entry} (h : Kept es) (h' : Kept es') :
        Kept (if c then es else es') :=
      iteInduction (motive := Kept) (fun _ => h) fun _ => h'
    have mode : (ofMode value).Keeps (.pair key value) := by
      unfold ofMode
      split <;> trivial
    have clip : (ofClip value).Keeps (.pair key value) := by
      unfold ofClip
      split <;> trivial
    have items : Kept ((tokenize (unwrapped value)).map ofDimensionItem) := by
      intro e he
      obtain ⟨i, -, rfl⟩ := List.mem_map.1 he
      exact .inr ⟨i, rfl⟩
    have spacing (axis : Spacing) : Kept [.spacing (.pair key value) axis value] := one (by rfl)
    have auto (a : AutoEntry) : Kept [.auto (.pair key value) a] := one (by rfl)
    have named : Kept [ofNamed (.pair key value) (lower key) value] := one (keeps_ofNamed _ _ _)
    exact ite (one mode) (ite items (ite (one clip) (ite (spacing .y) (ite (spacing .x)
      (ite (auto _) (ite (auto _) (ite (auto _) (ite (auto _) named)))))))) e he

theorem keepsFamily_of_mem {t : Token} {e : Entry} (he : e ∈ ofToken t) : e.KeepsFamily := by
  rcases keeps_of_mem he with h | ⟨i, rfl⟩
  · exact h.keepsFamily (family_of_mem he)
  · exact keepsFamily_ofDimensionItem i

end Entry

end Inspector.Layout
