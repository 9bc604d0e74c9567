import Inspector.Proofs.Draft.Family
import Inspector.Proofs.Observation

/-!
# Values that replace each other

A value of a weight, a radius or a padding is of a kind, and takes the place of the earlier values
of its own kind and of some others: that of one side takes the place of that of all sides. What a
draft holds after a number of such values are those behind which there is none that replaces them,
in their order; and each value warns about what it finds to replace.

    P.left (vs ++ [v]) = what v leaves of P.left vs, and v                      (left_concat)
    v ∈ P.left vs ↔ vs = xs ++ v :: ys, where no value of ys covers v          (mem_left_iff)
    P.Holds d vs → P.Holds (P.give d v again) (vs ++ [v])                       (Holds.give)
    P.Holds d vs → d.classes.classes = the classes of P.left vs                (Holds.classes)
-/

namespace Inspector

/-! ## Members that none behind them covers -/

section

variable {ι α : Type} (covers : ι → ι → Bool)

/-- The members behind which there is none whose key covers theirs. -/
def uncovered : List (ι × α) → List (ι × α)
  | [] => []
  | v :: vs => if vs.any fun w => covers w.1 v.1 then uncovered vs else v :: uncovered vs

theorem uncovered_concat (vs : List (ι × α)) (v : ι × α) :
    uncovered covers (vs ++ [v]) =
      (uncovered covers vs).filter (fun w => !covers v.1 w.1) ++ [v] := by
  induction vs with
  | nil => rfl
  | cons u vs ih =>
    simp only [List.cons_append, uncovered, List.any_append, List.any_cons, List.any_nil,
      Bool.or_false, ih]
    cases hu : covers v.1 u.1 <;> cases hvs : vs.any fun w => covers w.1 u.1 <;> simp [hu]

theorem mem_uncovered_iff {vs : List (ι × α)} {v : ι × α} : v ∈ uncovered covers vs ↔
    ∃ xs ys, vs = xs ++ v :: ys ∧ ∀ w ∈ ys, covers w.1 v.1 = false := by
  induction vs with
  | nil => simp [uncovered]
  | cons u vs ih =>
    have first : v ∈ uncovered covers (u :: vs) ↔
        (u = v ∧ ∀ w ∈ vs, covers w.1 v.1 = false) ∨ v ∈ uncovered covers vs := by
      rw [uncovered]
      split
      · next h =>
        obtain ⟨w, hw, hc⟩ := List.any_eq_true.1 h
        refine (or_iff_right ?_).symm
        rintro ⟨rfl, none⟩
        rw [none w hw] at hc
        cases hc
      · next h =>
        rw [List.mem_cons]
        refine or_congr_left ⟨?_, fun h => h.1.symm⟩
        rintro rfl
        refine ⟨rfl, fun w hw => ?_⟩
        by_contra hc
        exact h (List.any_eq_true.2 ⟨w, hw, by simpa using hc⟩)
    rw [first, ih]
    constructor
    · rintro (⟨rfl, later⟩ | ⟨xs, ys, rfl, later⟩)
      · exact ⟨[], vs, rfl, later⟩
      · exact ⟨u :: xs, ys, rfl, later⟩
    · rintro ⟨xs, ys, h, later⟩
      rcases List.cons_eq_append_iff.1 h with ⟨rfl, h⟩ | ⟨xs, rfl, rfl⟩
      · obtain ⟨rfl, rfl⟩ := List.cons.inj h
        exact .inl ⟨rfl, later⟩
      · exact .inr ⟨xs, ys, rfl, later⟩

theorem uncovered_sublist (vs : List (ι × α)) : (uncovered covers vs).Sublist vs := by
  induction vs with
  | nil => exact .slnil
  | cons v vs ih =>
    rw [uncovered]
    split
    · exact ih.cons v
    · exact ih.cons_cons v

/-- Each key is left once, if each covers itself. -/
theorem nodup_uncovered (self : ∀ k, covers k k) (vs : List (ι × α)) :
    ((uncovered covers vs).map (·.1)).Nodup := by
  induction vs using List.reverseRecOn with
  | nil => exact List.nodup_nil
  | append_singleton vs v ih =>
    rw [uncovered_concat, List.map_append, List.nodup_append]
    refine ⟨ih.sublist (List.filter_sublist.map _), List.nodup_singleton _, ?_⟩
    intro k hk j hj hkj
    obtain ⟨w, hw, rfl⟩ := List.mem_map.1 hk
    have kept := (List.mem_filter.1 hw).2
    rw [hkj, List.mem_singleton.1 hj, self] at kept
    cases kept

end

/-! ## Kinds of values -/

theorem ClassMap.entries_eraseAll {κ : Type} [DecidableEq κ] (m : ClassMap κ) (ks : List κ) :
    (m.eraseAll ks).entries = m.entries.filter fun e => !ks.contains e.1 := by
  induction ks generalizing m with
  | nil => simp [ClassMap.eraseAll]
  | cons k ks ih =>
    show ((m.erase k).eraseAll ks).entries = _
    rw [ih, ClassMap.erase, List.filter_filter]
    refine List.filter_congr fun e _ => ?_
    rw [List.contains_cons, Bool.not_or, Bool.and_comm]
    rfl

/-- Kinds of values of which a later one replaces earlier ones: the concern and the class of each,
the kinds that it replaces, in the order in which they are looked for, and what is said about it. -/
structure Precedence (ι κ ω : Type) where
  concern : ι → κ
  spell : ι → Text → Text
  replaced : ι → List ι
  /-- The warning that a value of the first kind replaces one of the second, if there is one. -/
  warning? : ι → ι → Option ω
  isOwn : ω → Bool
  concern_injective : Function.Injective concern
  replaced_nodup : ∀ k, (replaced k).Nodup
  isOwn_of_warning? : ∀ {k j : ι} {w : ω}, warning? k j = some w → isOwn w

namespace Precedence

variable {ι κ ε ω : Type} [DecidableEq ι] [DecidableEq κ] (P : Precedence ι κ ω)

/-! ## Algorithm -/

/-- A value of the kind `k` leaves none of the kind `j` before it. -/
def covers (k j : ι) : Bool := j = k || (P.replaced k).contains j

/-- The values that are left. -/
def left (vs : List (ι × Text)) : List (ι × Text) := uncovered P.covers vs

/-- The class of a value, with its concern. -/
def entry (v : ι × Text) : κ × List Text := (P.concern v.1, [P.spell v.1 v.2])

/-- The warnings about the values before `v` that are left and that `v` replaces. -/
def advice (before : List (ι × Text)) (v : ι × Text) : List ω :=
  ((P.replaced v.1).filter fun j => j ∈ (P.left before).map (·.1)).filterMap (P.warning? v.1)

/-- The warnings of all values. -/
def warnings (vs : List (ι × Text)) : List ω := eachBefore P.advice [] vs

/-- What a draft holds of the kind `j` is replaced by a value of the kind `k`. -/
def drop (k : ι) (d : Draft κ ε ω) (j : ι) : Draft κ ε ω :=
  match P.warning? k j with
  | some w => d.discard (P.concern j) w
  | none => d.erase (P.concern j)

/-- The draft with a further value, in place of those that it replaces. -/
def give (d : Draft κ ε ω) (v : ι × Text) (again : ω) : Draft κ ε ω :=
  ((P.replaced v.1).foldl (P.drop v.1) d).put (P.concern v.1) [P.spell v.1 v.2] again

/-- The draft holds what is left of the values and nothing else, and has their warnings. -/
structure Holds (d : Draft κ ε ω) (vs : List (ι × Text)) : Prop where
  entries : d.classes.entries = (P.left vs).map P.entry
  noted : d.noted P.isOwn = P.warnings vs

/-! ## What is left -/

omit [DecidableEq κ] in
theorem left_concat (vs : List (ι × Text)) (v : ι × Text) :
    P.left (vs ++ [v]) = (P.left vs).filter (fun w => !P.covers v.1 w.1) ++ [v] :=
  uncovered_concat P.covers vs v

omit [DecidableEq κ] in
theorem mem_left_iff {vs : List (ι × Text)} {v : ι × Text} :
    v ∈ P.left vs ↔ ∃ xs ys, vs = xs ++ v :: ys ∧ ∀ w ∈ ys, P.covers w.1 v.1 = false :=
  mem_uncovered_iff P.covers

omit [DecidableEq κ] in
theorem nodup_left (vs : List (ι × Text)) : ((P.left vs).map (·.1)).Nodup :=
  nodup_uncovered P.covers (fun k => by simp [covers]) vs

omit [DecidableEq κ] in
/-- The last value is always left. -/
theorem left_eq_nil_iff {vs : List (ι × Text)} : P.left vs = [] ↔ vs = [] := by
  rcases List.eq_nil_or_concat vs with rfl | ⟨us, v, rfl⟩
  · exact iff_of_true rfl rfl
  · rw [List.concat_eq_append, left_concat]
    simp

/-! ## What a value replaces -/

omit [DecidableEq ι] in
theorem classes_drop (k : ι) (d : Draft κ ε ω) (j : ι) :
    (P.drop k d j).classes = d.classes.erase (P.concern j) := by
  unfold drop
  split
  · exact d.classes_discard _ _
  · rfl

omit [DecidableEq ι] in
theorem noted_drop (k : ι) (d : Draft κ ε ω) (j : ι) : (P.drop k d j).noted P.isOwn =
    d.noted P.isOwn ++
      if d.classes.contains (P.concern j) then (P.warning? k j).toList else [] := by
  unfold drop
  cases hw : P.warning? k j with
  | none => simp
  | some w =>
    dsimp only
    unfold Draft.discard
    split
    · rw [Draft.noted_warn_of_pos _ (P.isOwn_of_warning? hw), Draft.noted_erase]
      rfl
    · rw [List.append_nil]

omit [DecidableEq ι] in
theorem classes_foldl_drop (k : ι) (js : List ι) (d : Draft κ ε ω) :
    (js.foldl (P.drop k) d).classes = d.classes.eraseAll (js.map P.concern) := by
  induction js generalizing d with
  | nil => rfl
  | cons j js ih =>
    rw [List.foldl_cons, ih, classes_drop]
    rfl

omit [DecidableEq ι] in
theorem noted_foldl_drop (k : ι) {js : List ι} (distinct : js.Nodup) (d : Draft κ ε ω) :
    (js.foldl (P.drop k) d).noted P.isOwn = d.noted P.isOwn ++
      (js.filter fun j => d.classes.contains (P.concern j)).filterMap (P.warning? k) := by
  induction js generalizing d with
  | nil => simp
  | cons j js ih =>
    obtain ⟨hj, hjs⟩ := List.nodup_cons.1 distinct
    -- The other kinds are held as before, for each is looked for once.
    have others : (js.filter fun i => (P.drop k d j).classes.contains (P.concern i)) =
        js.filter fun i => d.classes.contains (P.concern i) := by
      refine List.filter_congr fun i hi => ?_
      have other : P.concern i ≠ P.concern j := fun h => hj (P.concern_injective h ▸ hi)
      rw [classes_drop, ClassMap.contains_erase, decide_eq_false other]
      rfl
    rw [List.foldl_cons, ih hjs, noted_drop, others, List.filter_cons]
    split
    · cases hw : P.warning? k j <;> simp [hw]
    · simp

variable {P}

theorem Holds.contains {d : Draft κ ε ω} {vs : List (ι × Text)} (h : P.Holds d vs) (j : ι) :
    d.classes.contains (P.concern j) ↔ j ∈ (P.left vs).map (·.1) := by
  have held : d.classes.contains (P.concern j) = true ↔
      ∃ e ∈ d.classes.entries, P.concern j == e.1 := List.lookup_isSome_iff
  rw [held, h.entries, List.mem_map]
  constructor
  · rintro ⟨e, he, hj⟩
    obtain ⟨v, hv, rfl⟩ := List.mem_map.1 he
    exact ⟨v, hv, (P.concern_injective (eq_of_beq hj)).symm⟩
  · rintro ⟨v, hv, rfl⟩
    exact ⟨P.entry v, List.mem_map_of_mem hv, beq_self_eq_true _⟩

omit [DecidableEq κ] in
theorem Holds.empty : P.Holds ({} : Draft κ ε ω) [] := ⟨rfl, rfl⟩

omit [DecidableEq κ] in
theorem Holds.error {d : Draft κ ε ω} {vs : List (ι × Text)} (h : P.Holds d vs) (e : ε) :
    P.Holds (d.error e) vs :=
  ⟨h.entries, h.noted⟩

omit [DecidableEq κ] in
theorem Holds.warn {d : Draft κ ε ω} {vs : List (ι × Text)} (h : P.Holds d vs) {w : ω}
    (other : P.isOwn w = false) : P.Holds (d.warn w) vs :=
  ⟨h.entries, (d.noted_warn_of_neg other).trans h.noted⟩

/-- A further value takes the place of those that it covers, and warns about them. -/
theorem Holds.give {d : Draft κ ε ω} {vs : List (ι × Text)} (h : P.Holds d vs) (v : ι × Text)
    {again : ω} (other : P.isOwn again = false) : P.Holds (P.give d v again) (vs ++ [v]) := by
  constructor
  · have kept (w : ι × Text) : ((P.entry w).1 != P.concern v.1 &&
        !((P.replaced v.1).map P.concern).contains (P.entry w).1) = !P.covers v.1 w.1 := by
      have own : (P.concern w.1 != P.concern v.1) = !decide (w.1 = v.1) := by
        rw [bne, beq_eq_decide, decide_eq_decide.2 P.concern_injective.eq_iff]
      have replaced : ((P.replaced v.1).map P.concern).contains (P.concern w.1) =
          (P.replaced v.1).contains w.1 := by
        simp [P.concern_injective.eq_iff]
      rw [covers, Bool.not_or, ← own, ← replaced]
      rfl
    have erased : ((d.classes.eraseAll ((P.replaced v.1).map P.concern)).erase
        (P.concern v.1)).entries = ((P.left vs).filter fun w => !P.covers v.1 w.1).map P.entry := by
      rw [ClassMap.erase, ClassMap.entries_eraseAll, List.filter_filter, h.entries,
        List.filter_map]
      exact congrArg (List.map _) (List.filter_congr fun w _ => kept w)
    rw [Precedence.give, Draft.classes_put, classes_foldl_drop, left_concat, List.map_append]
    exact congrArg (· ++ [P.entry v]) erased
  · have found : ((P.replaced v.1).filter fun j => d.classes.contains (P.concern j)) =
        (P.replaced v.1).filter fun j => j ∈ (P.left vs).map (·.1) :=
      List.filter_congr fun j _ =>
        Bool.eq_iff_iff.2 ((h.contains j).trans decide_eq_true_iff.symm)
    rw [Precedence.give, Draft.noted_put _ _ _ other, noted_foldl_drop P v.1 (P.replaced_nodup v.1),
      h.noted, found, warnings, warnings, eachBefore_concat, List.nil_append]
    rfl

/-! ## Classes -/

variable (P) in
omit [DecidableEq ι] [DecidableEq κ] in
theorem flatMap_entry (vs : List (ι × Text)) :
    (vs.map P.entry).flatMap (·.2) = vs.map fun v => P.spell v.1 v.2 := by
  rw [List.flatMap_map, List.map_eq_flatMap]
  rfl

omit [DecidableEq κ] in
/-- The classes of what is left, where values of two kinds are never spelled alike. -/
theorem Holds.classes {d : Draft κ ε ω} {vs : List (ι × Text)} (h : P.Holds d vs)
    (apart : ∀ v ∈ P.left vs, ∀ w ∈ P.left vs, P.spell v.1 v.2 = P.spell w.1 w.2 → v.1 = w.1) :
    d.classes.classes = (P.left vs).map fun v => P.spell v.1 v.2 := by
  have distinct : ((P.left vs).map fun v => P.spell v.1 v.2).Nodup := by
    have kinds := P.nodup_left vs
    refine (List.Nodup.of_map _ kinds).map_on fun v hv w hw same => ?_
    exact List.inj_on_of_nodup_map kinds hv hw (apart v hv w hw same)
  rw [ClassMap.classes, h.entries, flatMap_entry, eraseDups_of_nodup distinct]

end Precedence

end Inspector
