import Inspector.Proofs.ClassMap.Apart
import Inspector.Proofs.Position.Gate
import Inspector.Proofs.Position.Vocabulary

/-!
# Placement and layering

A detached element is fixed, on the layer of its last depth or on one above all; any other element
is relative, if it has a depth. On each axis, a detached element has the classes that the last
accepted entry on the axis demands, next to each other, so that what centers an element comes in
pairs; any other element has no place.

    ClassMap.Apart Concern.Spells Concern.leads                                     (apart_spells)
    (run ts).draft.classes.get? (.place axis) = what ts demands last, if it is detached    (place_run)
    Placed (tokens input) (read input)                                              (placed_read)
-/

namespace Inspector.Position

open Text

/-! ## Classes and their concerns -/

/-- How the classes of a concern begin. -/
def Concern.leads : Concern → List Text
  | .frame => ["fixed", "relative"]
  | .rotate => ["rotate-", "-rotate-"]
  | .flipX => ["-scale-x-"]
  | .flipY => ["-scale-y-"]
  | .place .horizontal => ["left-", "right-", "-translate-x-", "w-"]
  | .place .vertical => ["top-", "bottom-", "-translate-y-", "h-"]
  | .depth => ["z-", "-z-"]

/-- The classes of constraints and edges, by axis: two edges for the whole width or height, and an
edge with a shift for the center. -/
def Axis.forms : Axis → List (List Text)
  | .horizontal =>
    [["left-0"], ["right-0"], ["left-0", "right-0"], ["left-1/2", "-translate-x-1/2"], ["w-full"]]
  | .vertical =>
    [["top-0"], ["bottom-0"], ["top-0", "bottom-0"], ["top-1/2", "-translate-y-1/2"], ["h-full"]]

/-- The classes that stand for a place on an axis: one of the forms, or a length from its edge. -/
def Axis.Allows (axis : Axis) (cs : List Text) : Prop :=
  cs ∈ axis.forms ∨ ∃ f, cs = [offsetLead axis ++ ("[" ++ f ++ "]")]

theorem allows_of_edge? {axis : Axis} {value c : Text} (h : edge? value = some (axis, c)) :
    axis.Allows [c] := by
  unfold edge? at h
  dsimp only at h
  split_ifs at h <;> cases h <;> exact .inl (by decide)

theorem allows_of_constraint? {axis : Axis} {value : Text} {cs : List Text}
    (h : constraint? axis value = some cs) : axis.Allows cs := by
  cases axis with
  | horizontal =>
    simp only [constraint?] at h
    split_ifs at h <;> cases h <;> exact .inl (by decide)
  | vertical =>
    simp only [constraint?] at h
    split_ifs at h <;> cases h <;> exact .inl (by decide)

theorem allows_of_offset {axis : Axis} {value f : Text} (h : Fragment.ofLength? value = some f) :
    axis.Allows [offsetLead axis ++ f] := by
  refine .inr ?_
  obtain ⟨q, -, h⟩ := Option.bind_eq_some_iff.1 h
  split at h
  · exact ⟨q.magnitude.spelled ++ "px", by simp [← Option.some.inj h, Fragment.inPixels]⟩
  · exact ⟨q.magnitude.spelled ++ "px", by simp [← Option.some.inj h, Fragment.inPixels]⟩
  · exact ⟨q.magnitude.spelled ++ "%", by simp [← Option.some.inj h, Fragment.inPercent]⟩
  · cases h

theorem Axis.Admits.allows {axis : Axis} {cs : List Text} (h : axis.Admits cs) :
    axis.Allows cs := by
  rcases h with ⟨value, c, hc, rfl⟩ | ⟨value, f, hf, rfl⟩ | ⟨value, hcs⟩
  · exact allows_of_edge? hc
  · exact allows_of_offset hf
  · exact allows_of_constraint? hcs

theorem Axis.Allows.nodup {axis : Axis} {cs : List Text} (h : axis.Allows cs) : cs.Nodup := by
  rcases h with form | ⟨f, rfl⟩
  · have each : ∀ cs ∈ axis.forms, cs.Nodup := by cases axis <;> decide
    exact each cs form
  · exact List.nodup_singleton _

theorem Axis.Allows.begins {axis : Axis} {cs : List Text} (h : axis.Allows cs) {c : Text}
    (hc : c ∈ cs) : BeginsWith (Concern.place axis).leads c := by
  rcases h with form | ⟨f, rfl⟩
  · have each : ∀ cs ∈ axis.forms, ∀ c ∈ cs, BeginsWith (Concern.place axis).leads c := by
      cases axis <;> decide
    exact each cs form c hc
  · have own : offsetLead axis ∈ (Concern.place axis).leads := by cases axis <;> decide
    rw [List.mem_singleton.1 hc]
    exact .of_mem own (List.prefix_append _ _)

def Concern.all : List Concern :=
  [.frame, .rotate, .flipX, .flipY, .place .horizontal, .place .vertical, .depth]

theorem Concern.mem_all (k : Concern) : k ∈ all := by
  cases k with
  | place axis => cases axis <;> decide
  | _ => decide

/-- The classes of a position tell their concerns. -/
theorem apart_spells : ClassMap.Apart Concern.Spells Concern.leads where
  nodup {k cs} h := by
    cases k with
    | place axis => exact (Axis.Admits.allows h).nodup
    | rotate =>
      obtain ⟨_, _, _, rfl⟩ := h
      exact List.nodup_singleton _
    | frame => rcases h with rfl | rfl <;> exact List.nodup_singleton _
    | depth => rcases h with rfl | ⟨_, _, _, rfl⟩ <;> exact List.nodup_singleton _
    | flipX | flipY =>
      rw [show cs = _ from h]
      exact List.nodup_singleton _
  begins {k cs c} h hc := by
    cases k with
    | place axis => exact (Axis.Admits.allows h).begins hc
    | rotate =>
      obtain ⟨_, _, ha, rfl⟩ := h
      rw [List.mem_singleton.1 hc]
      exact beginsWith_class? ha
    | frame => rcases h with rfl | rfl <;> rw [List.mem_singleton.1 hc] <;> decide
    | depth =>
      rcases h with rfl | ⟨_, _, hd, rfl⟩
      · rw [List.mem_singleton.1 hc]
        decide
      · rw [List.mem_singleton.1 hc]
        exact beginsWith_depthClass? hd
    | flipX | flipY =>
      rw [show cs = _ from h, List.mem_singleton] at hc
      rw [hc]
      decide
  apart {j k} h := by
    have each : ∀ j ∈ Concern.all, ∀ k ∈ Concern.all, j ≠ k → apart j.leads k.leads := by decide
    exact each j j.mem_all k k.mem_all h

/-! ## What the tokens give -/

def Constraint.demand? (axis : Axis) : Constraint → Option (List Text)
  | .on a value => if a = axis then constraint? a value else none
  | .unknown _ => none

/-- The classes that a placement demands on an axis, one list for each value that is accepted. -/
def Placement.demands (axis : Axis) : Placement → List (List Text)
  | .edge value => (((edge? value).filter (·.1 = axis)).map fun place => [place.2]).toList
  | .offset a value =>
    if a = axis then ((Fragment.ofLength? value).map fun f => [offsetLead a ++ f]).toList else []
  | .constrain items => items.filterMap (Constraint.demand? axis)

namespace Entry

def demands (axis : Axis) : Entry → List (List Text)
  | .placement _ p => p.demands axis
  | _ => []

def depth? : Entry → Option Text
  | .depth value => depthClass? value
  | _ => none

end Entry

/-- The classes that the last accepted entry on an axis demands. -/
def lastDemand? (axis : Axis) (ts : List Token) : Option (List Text) :=
  (ts.flatMap fun t => (Entry.ofToken t).demands axis).getLast?

/-- The class of the depth that a token gives, if it gives a valid one. -/
def depth? : Token → Option Text
  | .bare _ => none
  | .pair key value =>
    if lower key = "z" ∨ lower key = "z-index" ∨ lower key = "z-order" then depthClass? value
    else none

def lastDepth? (ts : List Token) : Option Text := (ts.filterMap depth?).getLast?

theorem isSome_lastDepth?_iff (ts : List Token) :
    (lastDepth? ts).isSome ↔ ∃ t ∈ ts, (depth? t).isSome := by
  simp [lastDepth?, Option.isSome_iff_ne_none]

theorem Placement.allows_of_mem_demands {axis : Axis} {p : Placement} {cs : List Text}
    (h : cs ∈ p.demands axis) : axis.Allows cs := by
  cases p with
  | edge value =>
    obtain ⟨⟨a, c⟩, hplace, rfl⟩ := Option.map_eq_some_iff.1 (Option.mem_toList.1 h)
    obtain ⟨hc, own⟩ := Option.filter_eq_some_iff.1 hplace
    obtain rfl : a = axis := of_decide_eq_true own
    exact allows_of_edge? hc
  | offset a value =>
    simp only [demands] at h
    split at h
    · next own =>
      obtain ⟨f, hf, rfl⟩ := Option.map_eq_some_iff.1 (Option.mem_toList.1 h)
      exact own ▸ allows_of_offset hf
    · cases h
  | constrain items =>
    obtain ⟨c, -, hc⟩ := List.mem_filterMap.1 h
    cases c with
    | on a value =>
      simp only [Constraint.demand?] at hc
      split at hc
      · next own => exact own ▸ allows_of_constraint? hc
      · cases hc
    | unknown item => cases hc

theorem allows_of_lastDemand? {axis : Axis} {ts : List Token} {cs : List Text}
    (h : lastDemand? axis ts = some cs) : axis.Allows cs := by
  obtain ⟨t, -, ht⟩ := List.mem_flatMap.1 (List.mem_of_getLast? h)
  generalize Entry.ofToken t = entry at ht
  cases entry with
  | placement token p => exact p.allows_of_mem_demands ht
  | _ => cases ht

theorem depth?_ofToken (t : Token) : (Entry.ofToken t).depth? = depth? t := by
  cases t with
  | bare text =>
    simp only [Entry.ofToken, Entry.ofBare, depth?]
    split_ifs <;> rfl
  | pair key value =>
    simp only [Entry.ofToken, depth?]
    by_cases depth : lower key = "z" ∨ lower key = "z-index" ∨ lower key = "z-order"
    · rw [if_pos depth]
      rcases depth with h | h | h <;> rw [h] <;> rfl
    · rw [if_neg depth, Entry.ofPair, if_neg depth]
      split_ifs <;> rfl

/-! ## What the tokens leave in the classes -/

theorem family_of_mem_rotationUpdates {i : Token} {u : ClassMap.Update Concern}
    (hu : u ∈ rotationUpdates i) : u.concern.family = .rotation := by
  cases i with
  | bare text =>
    obtain ⟨t, -, hu⟩ := ClassMap.mem_elim_nil_iff.1 hu
    cases t with
    | angle degrees =>
      simp only [Turn.updates] at hu
      split at hu <;> rw [List.mem_singleton.1 hu] <;> rfl
    | _ =>
      rw [List.mem_singleton.1 hu]
      rfl
  | pair key value => cases hu

theorem family_of_mem_placementUpdates {p : Placement} {u : ClassMap.Update Concern}
    (hu : u ∈ p.updates) : u.concern.family = .placement := by
  cases p with
  | edge value =>
    obtain ⟨_, -, hu⟩ := ClassMap.mem_elim_nil_iff.1 hu
    rw [List.mem_singleton.1 hu]
    rfl
  | offset axis value =>
    obtain ⟨_, -, hu⟩ := ClassMap.mem_elim_nil_iff.1 hu
    rw [List.mem_singleton.1 hu]
    rfl
  | constrain items =>
    obtain ⟨i, -, hu⟩ := List.mem_flatMap.1 hu
    cases i with
    | on axis value =>
      obtain ⟨_, -, hu⟩ := ClassMap.mem_elim_nil_iff.1 hu
      rw [List.mem_singleton.1 hu]
      rfl
    | unknown item => cases hu

/-- What an entry updates is of its own family. -/
theorem family_of_mem_updates {e : Entry} {detached : Bool} {u : ClassMap.Update Concern}
    (hu : u ∈ e.updates detached) : u.concern.family = e.family := by
  cases e with
  | placement token p =>
    simp only [Entry.updates] at hu
    split at hu
    · exact family_of_mem_placementUpdates hu
    · cases hu
  | rotation items =>
    obtain ⟨i, -, hu⟩ := List.mem_flatMap.1 hu
    exact family_of_mem_rotationUpdates hu
  | depth value =>
    obtain ⟨_, -, hu⟩ := ClassMap.mem_elim_nil_iff.1 hu
    rw [List.mem_singleton.1 hu]
    rfl
  | flag | unknownKey | unrecognized => cases hu

theorem left?_of_other_family {e : Entry} {k : Concern} (h : e.family ≠ k.family)
    (detached : Bool) : (e.updates detached).filterMap (ClassMap.Update.left? k) = [] :=
  ClassMap.filterMap_left?_eq_nil fun _ hu own => h (own ▸ (family_of_mem_updates hu).symm)

theorem left?_set_place (axis a : Axis) (cs : List Text) :
    ClassMap.Update.left? (Concern.place axis) (.set (.place a) cs) =
      if a = axis then some (some cs) else none := by
  simp [ClassMap.Update.left?, ClassMap.Update.concern, ClassMap.Update.given?]

theorem left?_constraint (axis : Axis) (c : Constraint) :
    c.updates.filterMap (ClassMap.Update.left? (.place axis)) =
      ((c.demand? axis).map some).toList := by
  cases c with
  | on a value =>
    simp only [Constraint.updates, Constraint.demand?]
    by_cases own : a = axis
    · subst own
      cases constraint? a value with
      | none => simp
      | some cs => simp [left?_set_place]
    · cases constraint? a value with
      | none => simp [own]
      | some cs => simp [left?_set_place, own]
  | unknown item => rfl

/-- What a placement leaves on an axis are the classes that it demands there. -/
theorem left?_placement (axis : Axis) (p : Placement) :
    p.updates.filterMap (ClassMap.Update.left? (.place axis)) = (p.demands axis).map some := by
  cases p with
  | edge value =>
    simp only [Placement.updates, Placement.demands]
    cases edge? value with
    | none => rfl
    | some place =>
      obtain ⟨a, c⟩ := place
      by_cases own : a = axis <;> simp [left?_set_place, own, Option.filter_some]
  | offset a value =>
    simp only [Placement.updates, Placement.demands]
    cases Fragment.ofLength? value with
    | none => simp
    | some f => by_cases own : a = axis <;> simp [left?_set_place, own]
  | constrain items =>
    simp only [Placement.updates, Placement.demands]
    rw [List.filterMap_flatMap, List.map_filterMap, List.filterMap_eq_flatMap_toList]
    exact congrArg (items.flatMap ·) (funext fun c => left?_constraint axis c)

theorem left?_place (axis : Axis) (e : Entry) (detached : Bool) :
    (e.updates detached).filterMap (ClassMap.Update.left? (.place axis)) =
      if detached then (e.demands axis).map some else [] := by
  cases e with
  | placement token p =>
    cases detached with
    | false => rfl
    | true => exact left?_placement axis p
  | _ =>
    rw [left?_of_other_family (by simp [Entry.family, Concern.family])]
    exact (ite_self _).symm

theorem left?_depth (e : Entry) (detached : Bool) :
    (e.updates detached).filterMap (ClassMap.Update.left? .depth) =
      (e.depth?.map fun c => some [c]).toList := by
  cases e with
  | depth value =>
    simp only [Entry.updates, Entry.depth?]
    cases depthClass? value with
    | none => rfl
    | some c => rfl
  | _ => exact left?_of_other_family (by simp [Entry.family, Concern.family]) _

/-! ## Runs -/

theorem get?_run (ts : List Token) (k : Concern) : (run ts).draft.classes.get? k =
    (ts.flatMap fun t => ((Entry.ofToken t).updates (flagged ts).detached).filterMap
      (ClassMap.Update.left? k)).getLast?.getD none := by
  rw [classes_run, ClassMap.get?_after, List.filterMap_flatMap]
  rfl

/-- A detached element holds what the last entry on the axis demands. -/
theorem place_run (axis : Axis) (ts : List Token) : (run ts).draft.classes.get? (.place axis) =
    if (flagged ts).detached then lastDemand? axis ts else none := by
  simp only [get?_run, left?_place]
  cases (flagged ts).detached with
  | false =>
    rw [List.flatMap_eq_nil_iff.2 fun t _ => if_neg Bool.false_ne_true]
    rfl
  | true =>
    simp only [if_true]
    rw [← List.map_flatMap, List.getLast?_map, lastDemand?]
    cases (ts.flatMap fun t => (Entry.ofToken t).demands axis).getLast? <;> rfl

theorem depth_run (ts : List Token) :
    (run ts).draft.classes.get? .depth = (lastDepth? ts).map fun c => [c] := by
  simp only [get?_run, left?_depth, depth?_ofToken]
  rw [← List.filterMap_eq_flatMap_toList, ← List.map_filterMap, List.getLast?_map, lastDepth?]
  cases (ts.filterMap depth?).getLast? <;> rfl

/-- The frame is left to the end. -/
theorem frame_run (ts : List Token) : (run ts).draft.classes.get? .frame = none := by
  have none (t : Token) : ((Entry.ofToken t).updates (flagged ts).detached).filterMap
      (ClassMap.Update.left? .frame) = [] := by
    cases h : Entry.ofToken t with
    | flag => rfl
    | _ => exact left?_of_other_family (by simp [Entry.family, Concern.family]) _
  rw [get?_run, List.flatMap_eq_nil_iff.2 fun t _ => none t]
  rfl

/-! ## The end -/

namespace State

variable (s : State)

/-- The end of a position changes the classes by its frame alone. -/
theorem classes_finish : s.finish.draft.classes = (framed s.detached s.draft).classes := by
  have frame {d d' : Draft Concern Error Warning} (h : d.classes = d'.classes) :
      (framed s.detached d).classes = (framed s.detached d').classes := by
    cases s.detached <;> cases depth : d'.classes.contains .depth <;> simp [framed, h, depth]
  rw [draft_finish]
  refine frame ?_
  simp only [apply_ite Draft.classes, Draft.classes_error, ite_self]

theorem get?_framed (d : Draft Concern Error Warning) (detached : Bool) {k : Concern}
    (frame : k ≠ .frame) (depth : k ≠ .depth) :
    (framed detached d).classes.get? k = d.classes.get? k := by
  unfold framed
  split
  · dsimp only
    split
    · exact (ClassMap.get?_prepend _ _ _ _).trans (if_neg frame)
    · refine (ClassMap.get?_insert _ _ _ _).trans ((if_neg depth).trans ?_)
      exact (ClassMap.get?_prepend _ _ _ _).trans (if_neg frame)
  · split
    · exact (ClassMap.get?_prepend _ _ _ _).trans (if_neg frame)
    · rfl

end State

theorem classes_finish_run (ts : List Token) : (run ts).finish.draft.classes =
    (State.framed (flagged ts).detached (run ts).draft).classes := by
  rw [State.classes_finish, detached_run_eq]

theorem contains_depth_run (ts : List Token) :
    (run ts).draft.classes.contains .depth = (lastDepth? ts).isSome := by
  rw [ClassMap.contains, depth_run, Option.isSome_map]

theorem frame_ne_depth : Concern.frame ≠ .depth := by decide

/-- A detached element is fixed, another one with a depth relative. -/
theorem frame_finish (ts : List Token) : (run ts).finish.draft.classes.get? .frame =
    if (flagged ts).detached then some ["fixed".toList]
    else (lastDepth? ts).map fun _ => ["relative".toList] := by
  have depth := contains_depth_run ts
  rw [classes_finish_run]
  unfold State.framed
  cases (flagged ts).detached with
  | true =>
    simp only [if_true]
    split
    · exact (ClassMap.get?_prepend _ _ _ _).trans (if_pos rfl)
    · refine (ClassMap.get?_insert _ _ _ _).trans ((if_neg frame_ne_depth).trans ?_)
      exact (ClassMap.get?_prepend _ _ _ _).trans (if_pos rfl)
  | false =>
    rw [if_neg Bool.false_ne_true, if_neg Bool.false_ne_true, Draft.contains_eq, depth]
    cases lastDepth? ts with
    | none => exact frame_run ts
    | some c => exact (ClassMap.get?_prepend _ _ _ _).trans (if_pos rfl)

/-- The last accepted depth is the depth; a detached element without one is above all. -/
theorem depth_finish (ts : List Token) : (run ts).finish.draft.classes.get? .depth =
    if (flagged ts).detached then some [(lastDepth? ts).getD "z-50"]
    else (lastDepth? ts).map fun c => [c] := by
  have depth := contains_depth_run ts
  have held := depth_run ts
  rw [classes_finish_run]
  unfold State.framed
  cases (flagged ts).detached with
  | true =>
    simp only [if_true, Draft.contains_eq, Draft.classes_prepend, ClassMap.contains_prepend, depth]
    cases h : lastDepth? ts with
    | none => exact (ClassMap.get?_insert _ _ _ _).trans (if_pos rfl)
    | some c =>
      rw [h] at held
      exact (ClassMap.get?_prepend _ _ _ _).trans ((if_neg frame_ne_depth.symm).trans held)
  | false =>
    rw [if_neg Bool.false_ne_true, if_neg Bool.false_ne_true, Draft.contains_eq, depth]
    cases h : lastDepth? ts with
    | none =>
      rw [h] at held
      exact held
    | some c =>
      rw [h] at held
      exact (ClassMap.get?_prepend _ _ _ _).trans ((if_neg frame_ne_depth.symm).trans held)

theorem place_finish (axis : Axis) (ts : List Token) :
    (run ts).finish.draft.classes.get? (.place axis) =
      if (flagged ts).detached then lastDemand? axis ts else none := by
  rw [classes_finish_run, State.get?_framed _ _ (k := .place axis) (by simp) (by simp),
    place_run]

/-- The frame, if there is one, comes first. -/
theorem head?_finish {ts : List Token} {c : Text}
    (h : (run ts).finish.draft.classes.get? .frame = some [c]) :
    (run ts).finish.draft.classes.classes.head? = some c := by
  suffices first : ∃ c es, (run ts).finish.draft.classes.entries = (.frame, [c]) :: es by
    obtain ⟨c', es, entries⟩ := first
    have same : some [c'] = some [c] := by
      rw [← h, ClassMap.get?, entries, List.lookup_cons_self]
    obtain rfl : c' = c := by simpa using same
    exact ClassMap.head?_classes_of_entries entries
  have found : (run ts).finish.draft.classes.contains .frame := by
    rw [ClassMap.contains, h, Option.isSome_some]
  rw [classes_finish_run] at found ⊢
  unfold State.framed at found ⊢
  split
  · dsimp only
    split
    · exact ⟨_, _, rfl⟩
    · exact ⟨_, _, rfl⟩
  · next attached =>
    rw [if_neg attached] at found
    split
    · exact ⟨_, _, rfl⟩
    · next noDepth =>
      rw [if_neg noDepth, ClassMap.contains, frame_run] at found
      cases found

/-! ## Readings -/

/-- The classes that begin as those of a concern do. -/
def ofConcern (k : Concern) (classes : List Text) : List Text :=
  classes.filter fun c => decide (BeginsWith k.leads c)

theorem shaped_finish (ts : List Token) :
    (run ts).finish.draft.classes.Obeys Concern.Spells :=
  State.shaped_finish (shaped_run ts)

/-- The classes of a concern in a reading are those that the concern holds in the end. -/
theorem ofConcern_reading (k : Concern) (ts : List Token) :
    ofConcern k (reading ts).report.classes =
      ((run ts).finish.draft.classes.get? k).getD [] :=
  (shaped_finish ts).filter_classes_of_apart apart_spells k

theorem mem_reading_iff_of_leads {k : Concern} {c : Text} (h : BeginsWith k.leads c)
    (ts : List Token) : c ∈ (reading ts).report.classes ↔
      c ∈ ((run ts).finish.draft.classes.get? k).getD [] := by
  rw [← ofConcern_reading, ofConcern, List.mem_filter]
  exact (and_iff_left (decide_eq_true h)).symm

theorem isFixed_reading (ts : List Token) : (reading ts).isFixed = (flagged ts).detached :=
  (State.detached_finish _).trans (detached_run_eq ts)

/-- The class that puts an element in the middle of an axis, before it is shifted. -/
def Axis.middle : Axis → Text
  | .horizontal => "left-1/2"
  | .vertical => "top-1/2"

/-- The class that shifts an element back by half its size. -/
def Axis.shift : Axis → Text
  | .horizontal => "-translate-x-1/2"
  | .vertical => "-translate-y-1/2"

/-- What centers an element comes in pairs. -/
theorem Axis.Allows.paired {axis : Axis} {cs : List Text} (h : axis.Allows cs) :
    axis.middle ∈ cs ↔ axis.shift ∈ cs := by
  rcases h with form | ⟨f, rfl⟩
  · have each : ∀ cs ∈ axis.forms, axis.middle ∈ cs ↔ axis.shift ∈ cs := by
      cases axis <;> decide
    exact each cs form
  · have lead : BeginsWith [offsetLead axis ++ "["] (offsetLead axis ++ ("[" ++ f ++ "]")) :=
      .of_mem List.mem_cons_self ⟨f ++ "]", by simp⟩
    have middle : ¬ BeginsWith [offsetLead axis ++ "["] axis.middle := by cases axis <;> decide
    have shift : ¬ BeginsWith [offsetLead axis ++ "["] axis.shift := by cases axis <;> decide
    rw [List.mem_singleton, List.mem_singleton]
    exact iff_of_false (fun same => middle (same ▸ lead)) fun same => shift (same ▸ lead)

/-- What a reading says of the frame, the layer and the place that the tokens give. -/
structure Placed (ts : List Token) (r : Reading) : Prop where
  fixed_iff : "fixed".toList ∈ r.report.classes ↔ r.isFixed
  fixed : r.isFixed → r.report.classes.head? = some "fixed".toList ∧
    ofConcern .depth r.report.classes = [(lastDepth? ts).getD "z-50"]
  relative_iff : "relative".toList ∈ r.report.classes ↔
    r.isFixed = false ∧ ∃ t ∈ ts, (depth? t).isSome
  relative : "relative".toList ∈ r.report.classes →
    r.report.classes.head? = some "relative".toList
  /-- An element that is not detached has no place. -/
  unplaced : r.isFixed = false → ∀ c ∈ r.report.classes, c = "relative" ∨
    BeginsWith Concern.rotate.leads c ∨ c = "-scale-x-100" ∨ c = "-scale-y-100" ∨
    BeginsWith Concern.depth.leads c
  /-- A detached element has the place that was demanded last, in one piece. -/
  placed : r.isFixed → ∀ axis,
    ofConcern (.place axis) r.report.classes = (lastDemand? axis ts).getD [] ∧
    (lastDemand? axis ts).getD [] <:+: r.report.classes
  allowed : ∀ axis cs, lastDemand? axis ts = some cs → axis.Allows cs
  centered : ∀ axis : Axis, axis.middle ∈ r.report.classes ↔ axis.shift ∈ r.report.classes
  turned : (ofConcern .rotate r.report.classes).length ≤ 1
  /-- Each gated token has an error of its own and gives no class, and it changes nothing else. -/
  gated : r.isFixed = false →
    r.report.errors.filter (gateLead.isPrefixOf ·) = (ts.filter isGated).map gateLine ∧
    r.report.classes = (reading (ts.filter (!isGated ·))).report.classes ∧
    ∀ t ∈ ts, isGated t → ∀ s : State, s.detached = false → s.step t = s.error (.notDetached t)

section

variable (ts : List Token)

theorem fixed_mem_iff :
    "fixed".toList ∈ (reading ts).report.classes ↔ (flagged ts).detached := by
  rw [mem_reading_iff_of_leads (k := .frame) (by decide), frame_finish]
  cases (flagged ts).detached with
  | true => exact iff_of_true List.mem_cons_self rfl
  | false =>
    refine iff_of_false ?_ Bool.false_ne_true
    rw [if_neg Bool.false_ne_true]
    cases lastDepth? ts with
    | none => exact List.not_mem_nil
    | some c => exact (by decide : "fixed".toList ∉ ["relative".toList])

theorem relative_mem_iff : "relative".toList ∈ (reading ts).report.classes ↔
    (flagged ts).detached = false ∧ ∃ t ∈ ts, (depth? t).isSome := by
  rw [mem_reading_iff_of_leads (k := .frame) (by decide), frame_finish, ← isSome_lastDepth?_iff]
  cases (flagged ts).detached with
  | true =>
    refine iff_of_false ?_ nofun
    exact (by decide : "relative".toList ∉ ["fixed".toList])
  | false =>
    rw [if_neg Bool.false_ne_true]
    cases lastDepth? ts with
    | none => exact iff_of_false List.not_mem_nil nofun
    | some c => exact iff_of_true List.mem_cons_self ⟨rfl, rfl⟩

theorem head?_relative (h : "relative".toList ∈ (reading ts).report.classes) :
    (reading ts).report.classes.head? = some "relative".toList := by
  obtain ⟨attached, depth⟩ := (relative_mem_iff ts).1 h
  obtain ⟨c, hc⟩ := Option.isSome_iff_exists.1 ((isSome_lastDepth?_iff ts).2 depth)
  refine head?_finish ?_
  rw [frame_finish, attached, hc]
  rfl

/-- An element that is not detached is turned, mirrored or layered, and nothing else. -/
theorem unplaced_reading (attached : (flagged ts).detached = false) {c : Text}
    (hc : c ∈ (reading ts).report.classes) : c = "relative" ∨
      BeginsWith Concern.rotate.leads c ∨ c = "-scale-x-100" ∨ c = "-scale-y-100" ∨
      BeginsWith Concern.depth.leads c := by
  have shaped := shaped_finish ts
  obtain ⟨k, cs, hk, hcs⟩ := shaped.mem_classes_iff.1 hc
  have spells := shaped.of_get? hk
  cases k with
  | frame =>
    rw [frame_finish, attached, if_neg Bool.false_ne_true] at hk
    obtain ⟨_, -, rfl⟩ := Option.map_eq_some_iff.1 hk
    exact .inl (List.mem_singleton.1 hcs)
  | rotate => exact .inr (.inl (apart_spells.begins spells hcs))
  | flipX =>
    rw [show cs = _ from spells, List.mem_singleton] at hcs
    exact .inr (.inr (.inl hcs))
  | flipY =>
    rw [show cs = _ from spells, List.mem_singleton] at hcs
    exact .inr (.inr (.inr (.inl hcs)))
  | place axis =>
    rw [place_finish, attached] at hk
    cases hk
  | depth => exact .inr (.inr (.inr (.inr (apart_spells.begins spells hcs))))

theorem centered_reading (axis : Axis) : axis.middle ∈ (reading ts).report.classes ↔
    axis.shift ∈ (reading ts).report.classes := by
  have leads : BeginsWith (Concern.place axis).leads axis.middle ∧
      BeginsWith (Concern.place axis).leads axis.shift := by cases axis <;> decide
  rw [mem_reading_iff_of_leads leads.1, mem_reading_iff_of_leads leads.2, place_finish]
  cases (flagged ts).detached with
  | false => exact iff_of_false List.not_mem_nil List.not_mem_nil
  | true =>
    rw [if_pos rfl]
    cases h : lastDemand? axis ts with
    | none => exact iff_of_false List.not_mem_nil List.not_mem_nil
    | some cs => exact (allows_of_lastDemand? h).paired

theorem turned_reading : (ofConcern .rotate (reading ts).report.classes).length ≤ 1 := by
  rw [ofConcern_reading]
  cases h : (run ts).finish.draft.classes.get? .rotate with
  | none => exact Nat.zero_le 1
  | some cs =>
    obtain ⟨_, _, _, rfl⟩ := (shaped_finish ts).of_get? h
    exact Nat.le_refl 1

end

theorem placed_reading (ts : List Token) : Placed ts (reading ts) where
  fixed_iff := by
    rw [isFixed_reading]
    exact fixed_mem_iff ts
  fixed h := by
    rw [isFixed_reading] at h
    constructor
    · exact head?_finish ((frame_finish ts).trans (if_pos h))
    · rw [ofConcern_reading, depth_finish, if_pos h, Option.getD_some]
  relative_iff := by
    rw [isFixed_reading]
    exact relative_mem_iff ts
  relative := head?_relative ts
  unplaced h c := by
    rw [isFixed_reading] at h
    exact unplaced_reading ts h
  placed h axis := by
    rw [isFixed_reading] at h
    have place := place_finish axis ts
    rw [if_pos h] at place
    rw [ofConcern_reading, ← place]
    exact ⟨rfl, (shaped_finish ts).infix_classes_of_apart apart_spells (.place axis)⟩
  allowed axis cs := allows_of_lastDemand?
  centered := centered_reading ts
  turned := turned_reading ts
  gated h := by
    rw [isFixed_reading] at h
    exact ⟨gate_lines_reading h, classes_ungated h, fun t _ gated s => s.step_of_isGated gated⟩

/-- The frame, the layer and the place of every position are those that its tokens give. -/
theorem placed_read (input : Option Text) : Placed (tokens input) (read input) :=
  placed_reading (tokens input)

/-- A later constraint takes the place of a length, and centers the element with two classes. -/
example : (read (some "detached, rotation=none, x=4, constraints=(x=center, y=scale)")).report.classes
    = ["fixed".toList, "left-1/2".toList, "-translate-x-1/2".toList, "h-full".toList,
      "z-50".toList] := by
  decide +kernel

end Inspector.Position
