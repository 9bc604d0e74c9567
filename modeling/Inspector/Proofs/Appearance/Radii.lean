import Inspector.Proofs.Appearance.LastWrite
import Inspector.Proofs.Appearance.Vocabulary
import Inspector.Proofs.Precedence.Parts

/-!
# The radii of an appearance

The radius of all corners takes the place of the radii of single ones, and that of one corner the
place of the radius of all. The radius classes of an appearance are either that of all corners, if
that was given last, or that of each corner given behind it, in the order in which they were last
given; and one corner is said to replace all of them exactly if all were given next before it.

    radiusOrder.Holds (the radii of run ts) (radii ts)                                (holds_run)
    the radius classes of (run ts).finish = those of standing (radii ts)     (radius_classes_finish)
-/

namespace Inspector.Appearance

open Text

/-! ## Values -/

def Warning.isReplacement : Warning → Bool
  | .uniformReplaced _ => true
  | .superseded _ | .unread _ | .defaulted => false

/-- The concern of the radius of one corner, or of all. -/
def radiusConcern : Option Corner → Concern
  | none => .radius
  | some k => .corner k

/-- The class of a radius with this fragment. -/
def radiusClass : Option Corner → Text → Text
  | none, f => "rounded-" ++ f
  | some k, f => "rounded-" ++ k.short ++ "-" ++ f

/-- The radius of all corners, `none`, and those of single ones. -/
def radiusOrder : Precedence (Option Corner) Concern Warning where
  concern := radiusConcern
  spell := radiusClass
  replaced
    | none => Corner.order.map some
    | some _ => [none]
  warning?
    | some k, none => some (.uniformReplaced k)
    | _, _ => none
  isOwn := Warning.isReplacement
  concern_injective := by
    rintro (_ | k) (_ | k') h <;> simp_all [radiusConcern]
  replaced_nodup
    | none => by decide
    | some _ => List.nodup_singleton none
  isOwn_of_warning? {k j w} h := by
    cases k <;> cases j <;> simp_all [Warning.isReplacement]
    simp [← h]

theorem isWholeAndParts_radiusOrder : radiusOrder.IsWholeAndParts where
  whole k := by cases k <;> decide
  part _ := rfl
  silent j := by cases j <;> rfl

/-- The radius that an entry gives, with its corner, if the value is one. -/
def Entry.radius? : Entry → Option (Option Corner × Text)
  | .uniform value => (radiusFragment? value).map (none, ·)
  | .corner k value => (radiusFragment? value).map (some k, ·)
  | .visible | .hidden | .unclear _ | .opacity _ | .unread _ => none

/-- The radii that are taken, one after the other. -/
def radii (ts : List Token) : List (Option Corner × Text) := (entries ts).filterMap Entry.radius?

/-! ## Steps -/

namespace State

/-- What a state holds of the radii, after one more entry. -/
theorem holds_apply {s : State} {vs : List (Option Corner × Text)}
    (h : radiusOrder.Holds (s.part .radius).draft vs) (e : Entry) :
    radiusOrder.Holds ((s.apply e).part .radius).draft (vs ++ e.radius?.toList) := by
  have other (hf : e.family ≠ .radius) (hr : e.radius? = none) :
      radiusOrder.Holds ((s.apply e).part .radius).draft (vs ++ e.radius?.toList) := by
    rw [(acts_apply e).elsewhere hf.symm, hr, Option.toList_none, List.append_nil]
    exact h
  have own (hf : e.family = .radius) : (s.apply e).part .radius = (s.part .radius).apply e := by
    rw [← hf]
    exact (acts_apply e).here s
  cases e with
  | visible | hidden | unclear | opacity => exact other (by simp [Entry.family]) rfl
  | uniform value =>
    rw [own rfl]
    simp only [apply, setUniform, Entry.radius?]
    cases radiusFragment? value with
    | none =>
      rw [Option.map_none, Option.toList_none, List.append_nil]
      exact h.error (.invalidRadius value)
    | some f =>
      have given : radiusOrder.Holds (radiusOrder.give (s.part .radius).draft (none, f)
          (.superseded .radius)) (vs ++ [(none, f)]) := h.give _ rfl
      rwa [isWholeAndParts_radiusOrder.give_whole] at given
  | corner k value =>
    rw [own rfl]
    simp only [apply, setCorner, Entry.radius?]
    cases radiusFragment? value with
    | none =>
      rw [Option.map_none, Option.toList_none, List.append_nil]
      exact h.error (.invalidCornerRadius k value)
    | some f => exact h.give (some k, f) rfl
  | unread u =>
    cases u with
    | key | token | smoothing => exact other (by simp [Entry.family, Unread.family]) rfl
    | corner | surplus =>
      rw [own rfl, Entry.radius?, Option.toList_none, List.append_nil]
      exact h.warn rfl

end State

/-! ## Runs -/

theorem holds_run (ts : List Token) :
    radiusOrder.Holds ((run ts).part .radius).draft (radii ts) := by
  have held := tracked_foldl (R := fun s vs => radiusOrder.Holds (State.part .radius s).draft vs)
    (l := entries ts) (fun e _ h => State.holds_apply h e) (s := {}) .empty
  rw [run_eq_foldl, radii, List.filterMap_eq_flatMap_toList]
  exact held

/-! ## Classes -/

theorem Corner.length_short (k : Corner) : k.short.length = 2 := by cases k <;> rfl

theorem radiusClass_corner_injective {k k' : Corner} {f f' : Text}
    (h : radiusClass (some k) f = radiusClass (some k') f') : k = k' := by
  have shorts : k.short ++ ("-".toList ++ f) = k'.short ++ ("-".toList ++ f') := by
    unfold radiusClass at h
    simp only [List.append_assoc] at h
    exact List.append_cancel_left h
  have same : k.short = k'.short :=
    List.append_inj_left shorts (k.length_short.trans k'.length_short.symm)
  revert same
  cases k <;> cases k' <;> decide

/-- The radius of all corners is never left beside that of one, and so no two radii are spelled
alike. -/
theorem radiusClass_apart (vs : List (Option Corner × Text)) :
    ∀ v ∈ standing vs, ∀ w ∈ standing vs, radiusClass v.1 v.2 = radiusClass w.1 w.2 →
      v.1 = w.1 := by
  intro v hv w hw same
  rcases standing_cases vs with ⟨f, -, alone⟩ | ⟨-, -, parts⟩
  · rw [alone, List.mem_singleton] at hv hw
    rw [hv, hw]
  · obtain ⟨k, hk⟩ := Option.isSome_iff_exists.1 (parts v hv)
    obtain ⟨k', hk'⟩ := Option.isSome_iff_exists.1 (parts w hw)
    rw [hk, hk'] at same
    rw [hk, hk', radiusClass_corner_injective same]

/-- The classes of radii, and no others, have their lead. -/
theorem isRadius_iff {k : Concern} {c : Text} (h : k.Spells c) :
    ("rounded-".toList.isPrefixOf c) = decide (k.family = .radius) := by
  cases k with
  | visibility =>
    rw [show c = _ from h]
    rfl
  | opacity =>
    rcases h with rfl | ⟨_, f, _, rfl⟩
    · rfl
    · rfl
  | radius =>
    obtain ⟨_, f, _, rfl⟩ := h
    simp [Concern.family]
  | corner k =>
    obtain ⟨_, f, _, rfl⟩ := h
    simp [Concern.family]

theorem radius_classes_finish (ts : List Token) :
    (run ts).finish.draft.classes.classes.filter ("rounded-".toList.isPrefixOf ·) =
      (standing (radii ts)).map fun v => radiusClass v.1 v.2 := by
  have spelled : ∀ e ∈ (run ts).finish.draft.classes.entries, ∀ c ∈ e.2,
      "rounded-".toList.isPrefixOf c = decide (e.1.family = .radius) := by
    intro e he c hc
    obtain ⟨c', hc', hs⟩ := (State.shaped_finish (shaped_run ts)).shaped e he
    rw [hc', List.mem_singleton] at hc
    rw [hc]
    exact isRadius_iff hs
  -- The end of an appearance leaves its radii as they are.
  have kept : (run ts).finish.draft.classes.restrict (fun k => k.family = .radius) =
      (run ts).draft.classes.restrict (fun k => k.family = .radius) := by
    rw [State.classes_finish]
    split
    · rfl
    · exact ClassMap.restrict_set_of_not _ (by decide) _
  rw [ClassMap.filter_classes_eq_restrict (p := fun k => k.family = .radius) spelled, kept,
    ← isWholeAndParts_radiusOrder.left_eq_standing]
  refine (holds_run ts).classes ?_
  rw [isWholeAndParts_radiusOrder.left_eq_standing]
  exact radiusClass_apart (radii ts)

/-! ## Warnings -/

/-- What is said about a corner that replaces the radius of all. -/
def replacement (k : Corner) : Text :=
  "appearance: " ++ k.short ++ " corner radius replaces the earlier all-corner radius"

/-- No other warning begins as one about a corner does. -/
theorem isReplacement_iff_head? (w : Warning) :
    w.isReplacement ↔ w.message.head? ∈ [some 't', some 'b'] := by
  have other {w : Warning} (c : Char) (head : w.message.head? = some c)
      (hc : some c ∉ [some 't', some 'b']) (hw : w.isReplacement = false) :
      w.isReplacement ↔ w.message.head? ∈ [some 't', some 'b'] := by
    rw [head, hw]
    exact iff_of_false Bool.false_ne_true hc
  cases w with
  | uniformReplaced k => cases k <;> decide
  | superseded k =>
    cases k with
    | opacity => exact other 'o' rfl (by decide) rfl
    | radius => exact other 'c' rfl (by decide) rfl
    | corner k => exact other 'r' rfl (by decide) rfl
  | unread u =>
    cases u with
    | key | token | corner => exact other 'u' rfl (by decide) rfl
    | surplus | smoothing => exact other 'c' rfl (by decide) rfl
  | defaulted => exact other 'n' rfl (by decide) rfl

theorem line_uniformReplaced (k : Corner) :
    Property.appearance.name ++ ": " ++ (Warning.uniformReplaced k).message = replacement k := by
  have lead : Property.appearance.name ++ ": ".toList = "appearance: ".toList := by decide
  rw [lead]
  exact (List.append_assoc _ _ _).symm

theorem replacement_iff (w : Warning) :
    Property.appearance.name ++ ": " ++ w.message ∈ Corner.order.map replacement ↔
      w.isReplacement := by
  constructor
  · intro h
    obtain ⟨k, -, hk⟩ := List.mem_map.1 h
    rw [← line_uniformReplaced] at hk
    rw [isReplacement_iff_head?, ← List.append_cancel_left hk, ← isReplacement_iff_head?]
    rfl
  · intro h
    cases w with
    | uniformReplaced k =>
      rw [line_uniformReplaced]
      exact List.mem_map_of_mem (by cases k <;> decide)
    | _ => cases h

/-! ## Readings -/

theorem noted_run (ts : List Token) :
    (run ts).draft.noted Warning.isReplacement = radiusOrder.warnings (radii ts) := by
  have within (w : Warning) (h : w.isReplacement) : families.ofWarning w = .radius := by
    cases w with
    | uniformReplaced k => rfl
    | _ => cases h
  rw [← Draft.noted_part _ within]
  exact (holds_run ts).noted

/-- What is said about corners that replace the radius of all. -/
theorem replacements_reading (ts : List Token) :
    (reading ts).warnings.filter (· ∈ Corner.order.map replacement) =
      (radiusOrder.warnings (radii ts)).map fun w =>
        Property.appearance.name ++ ": " ++ w.message := by
  have own (w : Warning) : decide (Property.appearance.name ++ ": " ++ w.message ∈
      Corner.order.map replacement) = w.isReplacement := by
    rw [Bool.eq_iff_iff, decide_eq_true_iff, replacement_iff]
  cases ts with
  | nil => decide
  | cons t ts =>
    rw [← noted_run, ← State.noted_finish]
    exact Draft.filter_warnings_report _ _ _ _ own

/-- The radius classes of an appearance are that of all corners, if that was taken last, and
otherwise the last one of each corner behind it. A corner replaces the radius of all exactly if that
was taken next before it. -/
theorem radius_of_all_or_corners (ts : List Token) (input : Option Text) :
    (reading ts).classes.filter ("rounded-".toList.isPrefixOf ·) =
      (standing (radii ts)).map (fun v => radiusClass v.1 v.2) ∧
    (reading ts).warnings.filter (· ∈ Corner.order.map replacement) =
      ((radii ts).zip (radii ts).tail).filterMap (fun (u, v) =>
        if u.1.isNone then v.1.map replacement else none) ∧
    read input = reading (tokens input) := by
  refine ⟨?_, ?_, read_eq input⟩
  · cases ts with
    | nil => rfl
    | cons t ts =>
      rw [classes_reading (List.cons_ne_nil t ts)]
      exact radius_classes_finish (t :: ts)
  · rw [replacements_reading, isWholeAndParts_radiusOrder.warnings_eq_neighbours,
      List.map_filterMap]
    refine List.filterMap_congr fun ⟨u, k, f⟩ _ => ?_
    dsimp only
    split
    · cases k with
      | none => rfl
      | some k => exact congrArg some (line_uniformReplaced k)
    · rfl

end Inspector.Appearance
