import Inspector.Proofs.Precedence
import Mathlib.Data.List.DropRight

/-!
# A whole and its parts

The weights of a stroke and the radii of an appearance are those of a whole and of its parts, and
each takes the place of the other. So either the last value of the whole is left alone, or the last
values of the parts behind it; and a part finds a whole to replace exactly if that was given next
before it.

    P.IsWholeAndParts → P.left vs = standing vs                               (left_eq_standing)
    P.IsWholeAndParts → P.warnings vs = what the parts next behind a whole say
                                                                      (warnings_eq_neighbours)
-/

namespace Inspector

/-! ## Last values -/

/-- The last member of each key, in their order. -/
def lastOfEach {ι α : Type} [DecidableEq ι] (vs : List (ι × α)) : List (ι × α) :=
  uncovered (fun k j => j = k) vs

/-- Of the values of a whole, which has the key `none`, and of its parts: the last value, if it is
one of the whole, and otherwise the last value of each part behind the whole. -/
def standing {ι α : Type} [DecidableEq ι] (vs : List (Option ι × α)) : List (Option ι × α) :=
  if vs.getLast?.any (·.1.isNone) then vs.getLast?.toList
  else lastOfEach (vs.rtakeWhile (·.1.isSome))

section

variable {ι α : Type} [DecidableEq ι]

theorem lastOfEach_concat (vs : List (ι × α)) (v : ι × α) :
    lastOfEach (vs ++ [v]) = (lastOfEach vs).filter (fun w => w.1 ≠ v.1) ++ [v] := by
  simp [lastOfEach, uncovered_concat]

/-- A value of the whole is either left alone or not at all. -/
theorem standing_cases (vs : List (Option ι × α)) :
    (∃ a, vs.getLast? = some (none, a) ∧ standing vs = [(none, a)]) ∨
      vs.getLast?.any (·.1.isNone) = false ∧
        standing vs = lastOfEach (vs.rtakeWhile (·.1.isSome)) ∧ ∀ v ∈ standing vs, v.1.isSome := by
  cases h : vs.getLast?.any (·.1.isNone) with
  | true =>
    obtain ⟨⟨k, a⟩, hlast, hk⟩ := (Option.any_eq_true _ _).1 h
    obtain rfl : k = none := Option.isNone_iff_eq_none.1 hk
    exact .inl ⟨a, hlast, by rw [standing, if_pos h, hlast]; rfl⟩
  | false =>
    have parts : standing vs = lastOfEach (vs.rtakeWhile (·.1.isSome)) :=
      if_neg (by rw [h]; exact Bool.false_ne_true)
    refine .inr ⟨rfl, parts, fun v hv => ?_⟩
    rw [parts] at hv
    exact List.mem_rtakeWhile_imp (p := fun v : Option ι × α => v.1.isSome)
      ((uncovered_sublist _ _).subset hv)

theorem standing_concat_none (vs : List (Option ι × α)) (a : α) :
    standing (vs ++ [(none, a)]) = [(none, a)] := by
  simp [standing]

theorem standing_concat_some (vs : List (Option ι × α)) (k : ι) (a : α) :
    standing (vs ++ [(some k, a)]) =
      (standing vs).filter (fun w => w.1.isSome && w.1 ≠ some k) ++ [(some k, a)] := by
  have last : standing (vs ++ [(some k, a)]) =
      (lastOfEach (vs.rtakeWhile (·.1.isSome))).filter (·.1 ≠ some k) ++ [(some k, a)] := by
    rw [standing, if_neg (by simp), List.rtakeWhile_concat_pos _ _ _ rfl, lastOfEach_concat]
  rw [last]
  refine congrArg (· ++ _) ?_
  rcases standing_cases vs with ⟨b, whole, alone⟩ | ⟨-, parts, some⟩
  · obtain ⟨us, rfl⟩ := List.getLast?_eq_some_iff.1 whole
    rw [alone, List.rtakeWhile_concat_neg _ _ _ (by simp)]
    rfl
  · rw [← parts]
    refine List.filter_congr fun w hw => ?_
    rw [some w hw, Bool.true_and]

end

namespace Precedence

/-- The kinds are a whole, `none`, and its parts: the whole replaces all of them without a warning,
and each of them replaces the whole. -/
structure IsWholeAndParts {ι κ ω : Type} (P : Precedence (Option ι) κ ω) : Prop where
  whole (k : ι) : some k ∈ P.replaced none
  part (k : ι) : P.replaced (some k) = [none]
  silent (j : Option ι) : P.warning? none j = none

variable {ι κ ω : Type} [DecidableEq ι] {P : Precedence (Option ι) κ ω}

theorem IsWholeAndParts.left_eq_standing (h : P.IsWholeAndParts) (vs : List (Option ι × Text)) :
    P.left vs = standing vs := by
  induction vs using List.reverseRecOn with
  | nil => rfl
  | append_singleton vs v ih =>
    obtain ⟨k, c⟩ := v
    rw [left_concat, ih]
    cases k with
    | none =>
      have all (j : Option ι) : P.covers none j = true := by
        cases j with
        | none => simp [covers]
        | some j => simp [covers, h.whole j]
      simp only [all, Bool.not_true, List.filter_false, List.nil_append, standing_concat_none]
    | some k =>
      have others (j : Option ι) : (!P.covers (some k) j) = (j.isSome && j ≠ some k) := by
        cases j with
        | none => simp [covers, h.part k]
        | some j => simp [covers, h.part k]
      simp only [others, standing_concat_some]

omit [DecidableEq ι] in
/-- A value of the whole erases those of its parts. -/
theorem IsWholeAndParts.give_whole {ε : Type} [DecidableEq κ] (h : P.IsWholeAndParts)
    (d : Draft κ ε ω) (c : Text) (again : ω) : P.give d (none, c) again =
      (d.eraseAll ((P.replaced none).map P.concern)).put (P.concern none) [P.spell none c]
        again := by
  have silent : P.drop none = fun (d : Draft κ ε ω) j => d.erase (P.concern j) := by
    funext d j
    rw [drop, h.silent j]
  rw [give, silent, Draft.eraseAll_eq_foldl, List.foldl_map]

/-! ## Neighbours -/

/-- A whole is left exactly if it is the last of the values. -/
theorem none_mem_standing_iff (vs : List (Option ι × Text)) :
    none ∈ (standing vs).map (·.1) ↔ vs.getLast?.any (·.1.isNone) := by
  rcases standing_cases vs with ⟨b, whole, alone⟩ | ⟨other, -, some⟩
  · simp [whole, alone]
  · rw [other]
    refine iff_of_false (fun hn => ?_) Bool.false_ne_true
    obtain ⟨v, hv, none⟩ := List.mem_map.1 hn
    exact absurd (some v hv) (by simp [none])

theorem IsWholeAndParts.advice_eq (h : P.IsWholeAndParts) (vs : List (Option ι × Text))
    (v : Option ι × Text) : P.advice vs v = (vs.getLast?.toList.map (·, v)).filterMap
      fun (u, v) => if u.1.isNone then P.warning? v.1 none else none := by
  obtain ⟨k, c⟩ := v
  rw [advice, h.left_eq_standing]
  cases k with
  | none =>
    -- The whole replaces its parts in silence.
    simp [h.silent]
  | some k =>
    rw [h.part k]
    simp only [List.filter_singleton, Bool.cond_decide, none_mem_standing_iff]
    cases vs.getLast? with
    | none => rfl
    | some u =>
      obtain ⟨_ | j, b⟩ := u
      · cases hw : P.warning? (some k) none <;> simp [hw]
      · rfl

/-- A part replaces a whole exactly if the value next before it is one of the whole. -/
theorem IsWholeAndParts.warnings_eq_neighbours (h : P.IsWholeAndParts)
    (vs : List (Option ι × Text)) : P.warnings vs = (vs.zip vs.tail).filterMap
      fun (u, v) => if u.1.isNone then P.warning? v.1 none else none := by
  induction vs using List.reverseRecOn with
  | nil => rfl
  | append_singleton vs v ih =>
    rw [warnings, eachBefore_concat, zip_tail_concat, List.filterMap_append, ← ih, List.nil_append,
      h.advice_eq]
    rfl

end Precedence

end Inspector
