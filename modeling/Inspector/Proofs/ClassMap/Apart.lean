import Inspector.Proofs.ClassMap
import Inspector.Proofs.Observation
import Inspector.Proofs.Text

/-!
# Class maps whose concerns are told apart

What a concern holds after a sequence of updates is what the last update about it has left. Where
the classes of each concern begin in a way of their own, a map loses none of them when it is
flattened: those of one concern stand together, in their order, and are known by how they begin.

    (m.after us).get? k = what the last update about k leaves, or m.get? k             (get?_after)
    m.classes.filter (BeginsWith (leads k) ·) = (m.get? k).getD []          (filter_classes_of_apart)
    (m.get? k).getD [] <:+: m.classes                                       (infix_classes_of_apart)
-/

namespace Inspector.ClassMap

open Text

variable {κ : Type} [DecidableEq κ]

/-! ## The last update -/

/-- What an update leaves of the concern `k`, if it is about `k`. -/
def Update.left? (k : κ) (u : Update κ) : Option (Option (List Text)) :=
  if u.concern = k then some (u.given?.map Prod.snd) else none

theorem get?_update (m : ClassMap κ) (u : Update κ) (k : κ) :
    (m.update u).2.get? k = (u.left? k).getD (m.get? k) := by
  have own : (if k = u.concern then u.given?.map Prod.snd else m.get? k) =
      (u.left? k).getD (m.get? k) := by
    unfold Update.left?
    by_cases h : u.concern = k
    · rw [if_pos h, if_pos h.symm, Option.getD_some]
    · rw [if_neg h, if_neg (Ne.symm h), Option.getD_none]
  rw [← own]
  cases u with
  | set j cs => exact get?_set m j k cs
  | insert j c => exact get?_insert m j k c
  | prepend j c => exact get?_prepend m j k c
  | erase j => exact get?_erase m j k

theorem filterMap_left?_eq_nil {us : List (Update κ)} {k : κ}
    (h : ∀ u ∈ us, u.concern ≠ k) : us.filterMap (Update.left? k) = [] :=
  List.filterMap_eq_nil_iff.2 fun u hu => if_neg (h u hu)

/-- A concern holds what the last update about it has left. -/
theorem get?_after (m : ClassMap κ) (us : List (Update κ)) (k : κ) :
    (m.after us).get? k = (us.filterMap (Update.left? k)).getLast?.getD (m.get? k) :=
  latest_foldl (fun m : ClassMap κ => m.get? k) (fun m u => m.get?_update u k) us m

/-! ## Concerns apart -/

/-- Each concern has its classes begin in some of its leads and none of them stand twice, and the
leads of no two concerns can begin the same class. -/
structure Apart (R : κ → List Text → Prop) (leads : κ → List Text) : Prop where
  nodup : ∀ {k cs}, R k cs → cs.Nodup
  begins : ∀ {k cs c}, R k cs → c ∈ cs → BeginsWith (leads k) c
  apart : ∀ {j k}, j ≠ k → apart (leads j) (leads k)

variable {R : κ → List Text → Prop} {leads : κ → List Text} {m : ClassMap κ}

omit [DecidableEq κ] in
theorem Apart.eq_of_beginsWith (h : Apart R leads) {j k : κ} {cs : List Text} (hj : R j cs)
    {c : Text} (hc : c ∈ cs) (begins : BeginsWith (leads k) c) : j = k := by
  by_contra other
  exact not_beginsWith_both (h.apart other) (h.begins hj hc) begins

omit [DecidableEq κ] in
theorem Obeys.classes_eq_flatMap (h : m.Obeys R) (apart : Apart R leads) :
    m.classes = m.entries.flatMap (·.2) := by
  refine eraseDups_of_nodup (List.nodup_flatMap.2 ⟨fun e he => apart.nodup (h.shaped e he), ?_⟩)
  have keys : m.entries.Pairwise fun e e' => e.1 ≠ e'.1 := List.pairwise_map.1 h.distinct
  refine keys.imp_of_mem fun he he' other => List.disjoint_left.2 fun c hc hc' => other ?_
  exact apart.eq_of_beginsWith (h.shaped _ he) hc (apart.begins (h.shaped _ he') hc')

theorem flatMap_of_key (es : List (κ × List Text)) (distinct : (es.map (·.1)).Nodup) (k : κ) :
    (es.flatMap fun e => if e.1 = k then e.2 else []) = (es.lookup k).getD [] := by
  induction es with
  | nil => rfl
  | cons e es ih =>
    obtain ⟨j, cs⟩ := e
    rw [List.map_cons, List.nodup_cons] at distinct
    rw [List.flatMap_cons]
    by_cases hj : j = k
    · subst hj
      have rest : (es.flatMap fun e => if e.1 = j then e.2 else []) = [] := by
        refine List.flatMap_eq_nil_iff.2 fun e he => if_neg fun hk => ?_
        exact distinct.1 (List.mem_map.2 ⟨e, he, hk⟩)
      rw [if_pos rfl, rest, List.append_nil, List.lookup_cons_self, Option.getD_some]
    · rw [if_neg hj, List.nil_append, ih distinct.2, List.lookup_cons,
        beq_false_of_ne (Ne.symm hj)]

/-- The classes that begin as a concern has them begin are those that the concern holds. -/
theorem Obeys.filter_classes_of_apart (h : m.Obeys R) (apart : Apart R leads) (k : κ) :
    m.classes.filter (fun c => decide (BeginsWith (leads k) c)) = (m.get? k).getD [] := by
  rw [h.classes_eq_flatMap apart, List.filter_flatMap, get?, ← flatMap_of_key _ h.distinct]
  refine List.flatMap_congr fun e he => ?_
  split
  · next hk =>
    refine List.filter_eq_self.2 fun c hc => decide_eq_true ?_
    exact hk ▸ apart.begins (h.shaped e he) hc
  · next hk =>
    refine List.filter_eq_nil_iff.2 fun c hc begins => hk ?_
    exact apart.eq_of_beginsWith (h.shaped e he) hc (of_decide_eq_true begins)

/-- The classes of a concern stand together. -/
theorem Obeys.infix_classes_of_apart (h : m.Obeys R) (apart : Apart R leads) (k : κ) :
    (m.get? k).getD [] <:+: m.classes := by
  cases hk : m.get? k with
  | none => exact ⟨[], m.classes, rfl⟩
  | some cs =>
    obtain ⟨before, behind, entries⟩ := List.append_of_mem (h.get?_eq_some_iff.1 hk)
    refine ⟨before.flatMap (·.2), behind.flatMap (·.2), ?_⟩
    rw [h.classes_eq_flatMap apart, entries, List.flatMap_append, List.flatMap_cons,
      List.append_assoc, Option.getD_some]

omit [DecidableEq κ] in
theorem head?_classes_of_entries {k : κ} {c : Text} {es : List (κ × List Text)}
    (h : m.entries = (k, [c]) :: es) : m.classes.head? = some c := by
  simp [classes, h, List.eraseDups_cons]

end Inspector.ClassMap
