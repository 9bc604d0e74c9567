import Inspector.Proofs.Layout.Alignment
import Inspector.Proofs.Layout.Keys
import Inspector.Proofs.Precedence

/-!
# The paddings of a layout

A padding of all sides takes the place of every other one, one of an axis that of all sides, and one
of a side that of its axis and of all sides. What an Auto layout has at its end are the paddings
behind which none was taken that replaces them, in their order; and each that replaces a broader one
says so.

    paddingOrder.Holds (the paddings of run ⟨.auto, ts, a⟩) (paddings ts)             (holds_run)
    paddingClass k f is among the classes ↔ (k, f) stands in paddings ts and none behind it
      is of its kind or replaces it                                      (paddingClass_mem_iff)
    the warnings about replacements = eachBefore replacedBy [] (paddings ts)
                                                                         (replacements_reading)
-/

namespace Inspector.Layout

open Text

/-! ## Values -/

def Warning.isReplacement : Warning → Bool
  | .paddingReplaced _ _ => true
  | _ => false

/-- The class of a padding with this fragment. -/
def paddingClass (k : Padding) (f : Text) : Text := k.short ++ "-" ++ f

/-- The kinds of paddings; that of all sides replaces the others without a warning. -/
def paddingOrder : Precedence Padding Concern Warning where
  concern := .padding
  spell := paddingClass
  replaced := Padding.replaced
  warning? k j := if k = .all then none else some (.paddingReplaced k j)
  isOwn := Warning.isReplacement
  concern_injective _ _ h := Concern.padding.inj h
  replaced_nodup k := by cases k <;> decide
  isOwn_of_warning? {k j w} h := by
    split at h
    · cases h
    · rw [← Option.some.inj h]
      rfl

/-- The padding that an item gives, if the value is one. -/
def Padding.Item.taken? : Padding.Item → Option (Padding × Text)
  | .value k text => (Fragment.ofExtent? text).map (k, ·)
  | .unknown _ => none

/-- The paddings that are taken of a value that is given for this kind. -/
def Padding.taken (kind : Padding) (value : Text) : List (Padding × Text) :=
  (kind.items value).filterMap Item.taken?

/-- The paddings that are taken of an entry. -/
def Entry.paddings : Entry → List (Padding × Text)
  | .auto _ (.padding items) => items.filterMap Padding.Item.taken?
  | _ => []

/-- The paddings that are taken, one after the other. -/
def paddings (ts : List Token) : List (Padding × Text) :=
  (ts.flatMap Entry.ofToken).flatMap Entry.paddings

/-- A group is flattened to what its tokens give; a bare one gives a padding of the same kind. -/
theorem Padding.taken_eq (kind : Padding) (value : Text) : kind.taken value =
    match Group.strip? value with
    | none => ((Fragment.ofExtent? value).map (kind, ·)).toList
    | some inner =>
      (tokenize inner).flatMap fun t => (given? kind t).elim [] fun (k, text) => k.taken text := by
  unfold taken
  split
  · next h =>
    rw [Entry.items_of_plain h]
    cases hf : Fragment.ofExtent? value <;> simp [Item.taken?, hf]
  · next inner h =>
    rw [items_of_group h, List.filterMap_flatMap]
    refine List.flatMap_congr fun t _ => ?_
    unfold itemsOf
    cases given? kind t with
    | none => rfl
    | some given => rfl

theorem family_of_paddings {e : Entry} (h : e.paddings ≠ []) : e.family = .padding := by
  cases e with
  | auto token a =>
    cases a with
    | padding items => rfl
    | _ => exact absurd rfl h
  | _ => exact absurd rfl h

theorem paddings_ofToken (t : Token) : (Entry.ofToken t).flatMap Entry.paddings =
    t.key?.elim [] fun key => (Padding.ofKey? (lower key)).elim [] (·.taken t.text) := by
  have other (h : family t ≠ .padding) : (Entry.ofToken t).flatMap Entry.paddings = [] := by
    rw [List.flatMap_eq_nil_iff]
    intro e he
    by_contra given
    exact h ((family_of_mem he).symm.trans (family_of_paddings given))
  cases t with
  | bare text =>
    have none : bareFamily text ≠ .padding := by
      unfold bareFamily
      dsimp only
      split_ifs <;> decide
    exact other none
  | pair key value =>
    show _ = (Padding.ofKey? (lower key)).elim [] (·.taken value)
    cases h : Padding.ofKey? (lower key) with
    | some kind =>
      rw [Entry.ofToken, ofPair_of_padding _ h, List.flatMap_singleton]
      rfl
    | none =>
      have none : keyFamily (lower key) ≠ .padding := by
        rw [keyFamily, h, Option.isSome_none, if_neg Bool.false_ne_true]
        split_ifs <;> decide
      refine other ?_
      rw [family, modeFamily]
      split_ifs
      · decide
      · decide
      · exact none

/-! ## Steps -/

namespace State

theorem draft_replacePadding (s : State) (k : Padding) :
    (s.replacePadding k).draft = k.replaced.foldl (paddingOrder.drop k) s.draft := by
  cases k with
  | all =>
    show s.draft.eraseAll (Padding.replaced .all |>.map .padding) = _
    rw [Draft.eraseAll_eq_foldl, List.foldl_map]
    rfl
  | _ => rfl

theorem holds_setPadding {s : State} {vs : List (Padding × Text)}
    (h : paddingOrder.Holds s.draft vs) (i : Padding.Item) :
    paddingOrder.Holds (s.setPadding i).draft (vs ++ i.taken?.toList) := by
  cases i with
  | value k text =>
    simp only [setPadding, Padding.Item.taken?]
    cases Fragment.ofExtent? text with
    | none =>
      rw [Option.map_none, Option.toList_none, List.append_nil]
      exact h.error (.invalidPadding k text)
    | some f =>
      have given : paddingOrder.Holds (paddingOrder.give s.draft (k, f)
          (.superseded (.padding k))) (vs ++ [(k, f)]) := h.give _ rfl
      show paddingOrder.Holds ((s.replacePadding k).draft.put _ _ _) _
      rwa [draft_replacePadding]
  | unknown token =>
    rw [Padding.Item.taken?, Option.toList_none, List.append_nil]
    exact h.warn rfl

theorem holds_apply {s : State} {vs : List (Padding × Text)}
    (h : paddingOrder.Holds (s.part .padding).draft vs) {e : Entry} (keeps : e.KeepsFamily) :
    paddingOrder.Holds ((s.apply .auto e).part .padding).draft (vs ++ e.paddings) := by
  have other (hf : e.family ≠ .padding) (hp : e.paddings = []) :
      paddingOrder.Holds ((s.apply .auto e).part .padding).draft (vs ++ e.paddings) := by
    rw [(acts_apply .auto keeps).elsewhere hf.symm, hp, List.append_nil]
    exact h
  have unread (u : Unread) : u.family ≠ .padding := by cases u <;> simp [Unread.family]
  cases e with
  | auto token a =>
    cases a with
    | padding items =>
      have own : (s.apply .auto (.auto token (.padding items))).part .padding =
          items.foldl setPadding (s.part .padding) := (acts_apply .auto keeps).here s
      have held := tracked_foldl (R := fun s vs => paddingOrder.Holds (State.draft s) vs)
        (l := items) (fun i _ h => holds_setPadding h i) h
      rw [own, Entry.paddings, List.filterMap_eq_flatMap_toList]
      exact held
    | _ => exact other (by simp [Entry.family, AutoEntry.family]) rfl
  | unread u => exact other (unread u) rfl
  | _ => exact other (by simp [Entry.family]) rfl

end State

/-! ## Runs -/

theorem holds_run (ts : List Token) (advice : Option Advice) :
    paddingOrder.Holds ((run ⟨.auto, ts, advice⟩).part .padding).draft (paddings ts) := by
  have keeps : ∀ e ∈ ts.flatMap Entry.ofToken, e.KeepsFamily := by
    intro e he
    obtain ⟨t, -, het⟩ := List.mem_flatMap.1 he
    exact Entry.keepsFamily_of_mem het
  have start : paddingOrder.Holds (State.part .padding
      { draft := { warnings := advice.toList.map .advice } }).draft [] := by
    cases advice <;> exact .empty
  rw [run_entries]
  exact tracked_foldl (R := fun s vs => paddingOrder.Holds (State.part .padding s).draft vs)
    (f := State.apply .auto) (fun e he h => State.holds_apply h (keeps e he)) start

/-! ## Classes -/

/-- How the classes of paddings begin. -/
def paddingLeads : List Text := Padding.kinds.map fun k => k.short ++ "-"

theorem Padding.mem_kinds (k : Padding) : k ∈ kinds := by cases k <;> decide

theorem short_mem_paddingLeads (k : Padding) : k.short ++ "-" ∈ paddingLeads :=
  List.mem_map_of_mem k.mem_kinds

/-- The classes of paddings, and no others, begin like this. -/
theorem isPadding_of_spells {k : Concern} {c : Text} (h : k.Spells c) :
    decide (BeginsWith paddingLeads c) = decide (k.family = .padding) := by
  have others : ∀ k ∈ Concern.all, k.family ≠ .padding → apart [k.lead] paddingLeads := by decide
  by_cases hk : k.family = .padding
  · rw [decide_eq_true hk, decide_eq_true_iff]
    cases k with
    | padding kind => exact .of_mem (short_mem_paddingLeads kind) h.lead
    | _ => cases hk
  · rw [decide_eq_false hk, decide_eq_false_iff_not]
    exact not_beginsWith_both (others k k.mem_all hk) (.of_mem List.mem_cons_self h.lead)

/-- Two paddings that are spelled alike are the same. -/
theorem eq_of_paddingClass {k k' : Padding} {f f' : Text}
    (h : paddingClass k f = paddingClass k' f') : (k, f) = (k', f') := by
  have each : ∀ k ∈ Padding.kinds, ∀ k' ∈ Padding.kinds, k ≠ k' →
      apart [k.short ++ "-"] [k'.short ++ "-"] := by decide
  obtain rfl : k = k' := by
    by_contra hne
    refine not_beginsWith_both (each k k.mem_kinds k' k'.mem_kinds hne)
      (.of_mem List.mem_cons_self (List.prefix_append _ f)) (.of_mem List.mem_cons_self ?_)
    exact ⟨f', h.symm⟩
  rw [show f = f' from List.append_cancel_left h]

theorem padding_autoClasses (ts : List Token) (advice : Option Advice) :
    (autoClasses ts advice).classes.filter (fun c => BeginsWith paddingLeads c) =
      (paddingOrder.left (paddings ts)).map fun v => paddingClass v.1 v.2 := by
  have spelled : ∀ e ∈ (autoClasses ts advice).entries, ∀ c ∈ e.2,
      decide (BeginsWith paddingLeads c) = decide (e.1.family = .padding) := by
    intro e he c hc
    obtain ⟨c', hc', -, hs⟩ := (shaped_autoClasses ts advice).shaped e he
    rw [hc', List.mem_singleton] at hc
    rw [hc]
    exact isPadding_of_spells hs
  rw [ClassMap.filter_classes_eq_restrict (p := fun k => k.family = .padding) spelled, autoClasses,
    State.restrict_finish_auto _ (by decide)]
  exact (holds_run ts advice).classes fun v _ w _ same => congrArg (·.1) (eq_of_paddingClass same)

theorem mem_left_iff_class (ts : List Token) (advice : Option Advice) (k : Padding) (f : Text) :
    (k, f) ∈ paddingOrder.left (paddings ts) ↔
      paddingClass k f ∈ (autoClasses ts advice).classes := by
  have begins : BeginsWith paddingLeads (paddingClass k f) :=
    .of_mem (short_mem_paddingLeads k) (List.prefix_append _ _)
  have kept : paddingClass k f ∈
      (autoClasses ts advice).classes.filter (fun c => BeginsWith paddingLeads c) ↔
        paddingClass k f ∈ (autoClasses ts advice).classes := by
    rw [List.mem_filter, and_iff_left (decide_eq_true begins)]
  rw [← kept, padding_autoClasses, List.mem_map]
  constructor
  · intro h
    exact ⟨_, h, rfl⟩
  · rintro ⟨v, hv, same⟩
    rwa [← eq_of_paddingClass same]

/-- A padding has its class at the end exactly if none behind it is of its kind or replaces it. -/
theorem paddingClass_mem_iff (ts : List Token) (advice : Option Advice) (k : Padding) (f : Text) :
    paddingClass k f ∈ (autoClasses ts advice).classes ↔
      ∃ xs ys, paddings ts = xs ++ (k, f) :: ys ∧ ∀ v ∈ ys, v.1 ≠ k ∧ k ∉ v.1.replaced := by
  have spared (v : Padding × Text) :
      paddingOrder.covers v.1 k = false ↔ v.1 ≠ k ∧ k ∉ v.1.replaced := by
    simp [Precedence.covers, paddingOrder, @eq_comm _ k v.1]
  rw [← mem_left_iff_class, paddingOrder.mem_left_iff]
  simp only [spared]

/-- The padding of all sides is left alone or not at all. -/
theorem left_eq_of_all {vs : List (Padding × Text)} {f : Text}
    (h : (.all, f) ∈ paddingOrder.left vs) : paddingOrder.left vs = [(.all, f)] := by
  obtain ⟨xs, ys, rfl, spared⟩ := paddingOrder.mem_left_iff.1 h
  -- Each kind takes the place of that of all sides, so it is the last one.
  have replaces (k : Padding) : paddingOrder.covers k .all = true := by cases k <;> decide
  have covers (k : Padding) : paddingOrder.covers .all k = true := by cases k <;> decide
  obtain rfl : ys = [] := by
    rw [List.eq_nil_iff_forall_not_mem]
    intro w hw
    exact absurd (spared w hw) (by simp [replaces])
  rw [paddingOrder.left_concat]
  simp [covers]

/-! ## Warnings -/

/-- What is said about a padding that replaces a broader one. -/
def replacement (k earlier : Padding) : Text :=
  "layout: " ++ k.name ++ " replaces the earlier " ++ earlier.name ++ " value"

/-- Whatever could be said about two kinds of paddings. -/
def replacements : List Text := Padding.kinds.flatMap fun k => Padding.kinds.map (replacement k)

/-- What is said about the broader paddings among `before` that are left and that `v` replaces. -/
def replacedBy (before : List (Padding × Text)) (v : Padding × Text) : List Text :=
  if v.1 = .all then []
  else (v.1.replaced.filter fun k => k ∈ (paddingOrder.left before).map (·.1)).map (replacement v.1)

def Superseded.all : List Superseded :=
  Dimension.all.map Superseded.size ++ [.spacing .x, .spacing .y, .flow, .alignment, .gap] ++
    Padding.kinds.map Superseded.padding

theorem Superseded.mem_all (k : Superseded) : k ∈ all := by
  cases k with
  | size d => cases d <;> decide
  | spacing axis => cases axis <;> decide
  | padding kind => cases kind <;> decide
  | _ => decide

/-- How the warnings begin that are about a replacement. -/
def replacementLeads : List Text := Padding.kinds.map fun k => k.name ++ " replaces"

/-- How the warnings begin that are about no value. -/
def plainLeads : List Text :=
  ["mode ", "no ", "unknown ", "unrecognized ", "vertical ", "setting "]

/-- How the other warnings begin. -/
def otherLeads : List Text := plainLeads ++ Superseded.all.map fun k => k.title ++ " set".toList

theorem beginsWith_otherLeads {w : Warning} (h : w.isReplacement = false) :
    BeginsWith otherLeads w.message := by
  have plain {text : Text} (lead : BeginsWith plainLeads text) : BeginsWith otherLeads text := by
    obtain ⟨l, hl, begins⟩ := lead
    exact .of_mem (List.mem_append_left _ hl) begins
  have quoted {before : Text} (lead : BeginsWith plainLeads before) (value after : Text) :
      BeginsWith otherLeads (before ++ value ++ after) := by
    rw [List.append_assoc]
    exact plain (lead.trans (List.prefix_append _ _))
  cases w with
  | advice a => cases a <;> exact plain (by decide)
  | superseded k =>
    have lead : " set".toList <+: " set more than once; the last value wins".toList := by decide
    exact .of_mem (List.mem_append_right _ (List.mem_map_of_mem k.mem_all))
      ((List.prefix_append_right_inj k.title).2 lead)
  | unread u => cases u <;> exact quoted (by decide) _ _
  | unknownPadding token => exact quoted (by decide) _ _
  | unknownSetting token => exact quoted (by decide) _ _
  | unsupportedSetting name => exact quoted (by decide) _ _
  | wrapRemoved | noAlignment | noGap => exact plain (by decide)
  | paddingReplaced => cases h

theorem line_paddingReplaced (k earlier : Padding) :
    Property.layout.name ++ ": " ++ (Warning.paddingReplaced k earlier).message =
      replacement k earlier := by
  have lead : Property.layout.name ++ ": ".toList = "layout: ".toList := by decide
  have joined (a b c d e : Text) : a ++ (b ++ c ++ d ++ e) = a ++ b ++ c ++ d ++ e := by
    simp only [List.append_assoc]
  rw [lead]
  exact joined _ _ _ _ _

theorem mem_replacements_iff (w : Warning) :
    Property.layout.name ++ ": " ++ w.message ∈ replacements ↔ w.isReplacement := by
  constructor
  · intro h
    obtain ⟨k, hk, h⟩ := List.mem_flatMap.1 h
    obtain ⟨earlier, -, same⟩ := List.mem_map.1 h
    rw [← line_paddingReplaced] at same
    have same := List.append_cancel_left same
    have apart : apart replacementLeads otherLeads := by decide
    have begins : BeginsWith replacementLeads (Warning.paddingReplaced k earlier).message := by
      have lead : " replaces".toList <+: " replaces the earlier ".toList := by decide
      have named : k.name ++ " replaces".toList <+: k.name ++ " replaces the earlier ".toList :=
        (List.prefix_append_right_inj k.name).2 lead
      exact .of_mem (List.mem_map_of_mem hk)
        (named.trans ((List.prefix_append _ _).trans (List.prefix_append _ _)))
    by_contra other
    refine not_beginsWith_both apart begins ?_
    rw [same]
    exact beginsWith_otherLeads (by simpa using other)
  · intro h
    cases w with
    | paddingReplaced k earlier =>
      rw [line_paddingReplaced]
      exact List.mem_flatMap.2 ⟨k, k.mem_kinds, List.mem_map_of_mem earlier.mem_kinds⟩
    | _ => cases h

theorem noted_run (ts : List Token) (advice : Option Advice) :
    (run ⟨.auto, ts, advice⟩).draft.noted Warning.isReplacement =
      paddingOrder.warnings (paddings ts) := by
  have within (w : Warning) (h : w.isReplacement) : families.ofWarning w = .padding := by
    cases w with
    | paddingReplaced k earlier => rfl
    | _ => cases h
  rw [← Draft.noted_part _ within]
  exact (holds_run ts advice).noted

/-- What is said about the paddings that are replaced, one after the other. -/
theorem replacements_reading (ts : List Token) (advice : Option Advice) :
    (Resolution.reading ⟨.auto, ts, advice⟩).report.warnings.filter (· ∈ replacements) =
      eachBefore replacedBy [] (paddings ts) := by
  have own (w : Warning) : decide (Property.layout.name ++ ": " ++ w.message ∈ replacements) =
      w.isReplacement := by
    rw [Bool.eq_iff_iff, decide_eq_true_iff, mem_replacements_iff]
  have said : (fun before v => (paddingOrder.advice before v).map fun w =>
      Property.layout.name ++ ": " ++ w.message) = replacedBy := by
    funext before v
    unfold Precedence.advice replacedBy
    rw [List.map_filterMap]
    split
    · next all => simp [paddingOrder, all]
    · next part =>
      rw [← List.filterMap_eq_map (f := replacement v.1)]
      refine List.filterMap_congr fun earlier _ => ?_
      simp only [paddingOrder, if_neg part, Option.map_some, line_paddingReplaced, Function.comp]
  rw [← said, ← map_eachBefore]
  show _ = (paddingOrder.warnings (paddings ts)).map _
  rw [← noted_run ts advice, ← State.noted_finish_auto _ rfl rfl]
  exact Draft.filter_warnings_report _ _ _ _ own

/-! ## Readings -/

/-- The padding classes of an Auto layout are those of the paddings behind which none was taken of
their kind or in their place, in their order. That of all sides stands alone, and each padding that
replaces broader ones is said to replace each of them. -/
theorem paddings_left (ts : List Token) (advice : Option Advice) :
    let report := (Resolution.reading ⟨.auto, ts, advice⟩).report
    report.classes.filter (fun c => BeginsWith paddingLeads c) =
      (paddingOrder.left (paddings ts)).map (fun v => paddingClass v.1 v.2) ∧
    (∀ k f, paddingClass k f ∈ report.classes ↔
      ∃ xs ys, paddings ts = xs ++ (k, f) :: ys ∧ ∀ v ∈ ys, v.1 ≠ k ∧ k ∉ v.1.replaced) ∧
    (∀ f, paddingClass .all f ∈ report.classes →
      report.classes.filter (fun c => BeginsWith paddingLeads c) = [paddingClass .all f]) ∧
    report.warnings.filter (· ∈ replacements) = eachBefore replacedBy [] (paddings ts) ∧
    paddings ts = ts.flatMap (fun t =>
      t.key?.elim [] fun key => (Padding.ofKey? (lower key)).elim [] (·.taken t.text)) ∧
    (∀ kind value, Padding.taken kind value =
      match Group.strip? value with
      | none => ((Fragment.ofExtent? value).map (kind, ·)).toList
      | some inner => (tokenize inner).flatMap fun t =>
        (Padding.given? kind t).elim [] fun (k, text) => k.taken text) ∧
    ∀ input, Mode.resolve input = ⟨.auto, ts, advice⟩ →
      read input = Resolution.reading ⟨.auto, ts, advice⟩ := by
  intro report
  refine ⟨padding_autoClasses ts advice, paddingClass_mem_iff ts advice, fun f hf => ?_,
    replacements_reading ts advice, ?_, Padding.taken_eq, fun input h => by rw [read_eq, h]⟩
  · have alone := left_eq_of_all ((mem_left_iff_class ts advice .all f).2 hf)
    exact (padding_autoClasses ts advice).trans (congrArg _ alone)
  · rw [paddings, List.flatMap_assoc]
    exact List.flatMap_congr fun t _ => paddings_ofToken t

/-- Paddings in a group that replace broader ones, and one of all sides behind them. -/
theorem paddings_of_group :
    let ts : List Token := [.pair "padding" "4", .pair "px" "(2,right=3)", .pair "pb" "1"]
    let report := (Resolution.reading ⟨.auto, ts, none⟩).report
    let padded := (Resolution.reading ⟨.auto, ts ++ [.pair "p" "0"], none⟩).report
    paddings ts = [(.all, "[4px]".toList), (.x, "[2px]".toList), (.right, "[3px]".toList),
      (.bottom, "[1px]".toList)] ∧
    report.classes.filter (fun c => BeginsWith paddingLeads c) =
      ["pr-[3px]".toList, "pb-[1px]".toList] ∧
    report.warnings.filter (· ∈ replacements) =
      ["layout: padding-x replaces the earlier padding value".toList,
        "layout: padding-right replaces the earlier padding-x value".toList] ∧
    paddingClass .all "[0px]" ∈ padded.classes ∧
    padded.classes.filter (fun c => BeginsWith paddingLeads c) = ["p-[0px]".toList] ∧
    Mode.resolve (some "Auto{padding=4,px=(2,right=3),pb=1}") = ⟨.auto, ts, none⟩ ∧
    (read (some "Auto{padding=4,px=(2,right=3),pb=1}")).report = report := by
  intro ts report padded
  have taken : paddings ts = [(.all, "[4px]".toList), (.x, "[2px]".toList),
      (.right, "[3px]".toList), (.bottom, "[1px]".toList)] := by decide +kernel
  have further : paddings (ts ++ [.pair "p" "0"]) = [(.all, "[4px]".toList), (.x, "[2px]".toList),
      (.right, "[3px]".toList), (.bottom, "[1px]".toList), (.all, "[0px]".toList)] := by
    decide +kernel
  have resolved : Mode.resolve (some "Auto{padding=4,px=(2,right=3),pb=1}") =
      ⟨.auto, ts, none⟩ := by decide
  obtain ⟨left, -, -, replaced, -, -, tie⟩ := paddings_left ts none
  obtain ⟨-, present, alone, -⟩ := paddings_left (ts ++ [.pair "p" "0"]) none
  have last : paddingClass .all "[0px]" ∈ padded.classes := by
    refine (present .all "[0px]").2 ⟨paddings ts, [], ?_, nofun⟩
    rw [further, taken]
    rfl
  refine ⟨taken, ?_, ?_, last, ?_, resolved, congrArg Reading.report (tie _ resolved)⟩
  · rw [left, taken]
    decide
  · rw [replaced, taken]
    decide
  · exact (alone _ last).trans (by decide)

end Inspector.Layout
