import Inspector.ByName
import Mathlib.Data.List.Dedup
import Mathlib.Data.List.Induction
import Mathlib.Data.List.Perm.Basic

/-!
# Collected entries

Entries that are put in one after the other, in whatever order, come out sorted by name, and each
name has the value that it was last given. Sorted entries are told apart by what they have under
each name alone; so they are collected as they are.

    (collect ws).lookup n = lastGiven ws n                                        (lookup_collect)
    SortedByName es → SortedByName es' → (∀ n, es.lookup n = es'.lookup n) → es = es'
                                                                                      (eq_of_lookup)
    SortedByName es → collect es = es                                          (collect_of_sorted)
-/

namespace Inspector.ByName

variable {α : Type} {es es' : List (Text × α)}

/-- The value that a name is given last. -/
def lastGiven (ws : List (Text × α)) (name : Text) : Option α := ws.reverse.lookup name

theorem lastGiven_concat (ws : List (Text × α)) (n m : Text) (v : α) :
    lastGiven (ws ++ [(n, v)]) m = if m = n then some v else lastGiven ws m := by
  rw [lastGiven, List.reverse_concat, List.lookup_cons]
  by_cases h : m = n
  · simp [h]
  · have hne : (m == n) = false := by simpa using h
    rw [hne, if_neg h, lastGiven]

/-! ## Names -/

/-- Where no name comes twice, looking up a name finds the one entry that has it. -/
theorem lookup_eq_some_iff (h : (es.map (·.1)).Nodup) {n : Text} {v : α} :
    es.lookup n = some v ↔ (n, v) ∈ es := by
  induction es with
  | nil => simp
  | cons e es ih =>
    obtain ⟨m, w⟩ := e
    obtain ⟨hm, hes⟩ := List.nodup_cons.1 h
    rw [List.lookup_cons, List.mem_cons]
    by_cases hn : n = m
    · subst hn
      have hlater : (n, v) ∉ es := fun hv => hm (List.mem_map.2 ⟨(n, v), hv, rfl⟩)
      rw [beq_self_eq_true, or_iff_left hlater, Option.some.injEq, Prod.mk.injEq,
        and_iff_right rfl, eq_comm]
    · have hne : (n == m) = false := by simpa using hn
      have hfirst : (n, v) ≠ (m, w) := fun heq => hn (congrArg Prod.fst heq)
      rw [hne, or_iff_right hfirst]
      exact ih hes

theorem nodup_names (h : SortedByName es) : (es.map (·.1)).Nodup := by
  rw [List.Nodup, List.pairwise_map]
  refine List.Pairwise.imp (fun {a b} hlt => ?_) h
  intro heq
  rw [heq] at hlt
  exact List.lt_irrefl _ hlt

theorem eq_of_lookup (h : SortedByName es) (h' : SortedByName es')
    (same : ∀ n, es.lookup n = es'.lookup n) : es = es' := by
  have members : ∀ e, e ∈ es ↔ e ∈ es' := by
    rintro ⟨n, v⟩
    rw [← lookup_eq_some_iff (nodup_names h), same, lookup_eq_some_iff (nodup_names h')]
  have perm : es.Perm es' :=
    (List.perm_ext_iff_of_nodup (nodup_names h).of_map (nodup_names h').of_map).2 members
  refine perm.eq_of_pairwise (fun a b _ _ hab hba => ?_) h h'
  exact absurd hba (List.lt_asymm hab)

/-! ## Collecting -/

theorem collect_concat (ws : List (Text × α)) (n : Text) (v : α) :
    collect (ws ++ [(n, v)]) = (put n v (collect ws)).2 :=
  List.foldl_concat ..

theorem sorted_collect (ws : List (Text × α)) : SortedByName (collect ws) := by
  induction ws using List.reverseRecOn with
  | nil => exact .nil
  | append_singleton ws w ih =>
    rw [collect_concat]
    exact sorted_put w.1 w.2 ih

theorem lookup_collect (ws : List (Text × α)) (n : Text) :
    (collect ws).lookup n = lastGiven ws n := by
  induction ws using List.reverseRecOn with
  | nil => rfl
  | append_singleton ws w ih =>
    rw [collect_concat, lookup_put (sorted_collect ws), ih, ← lastGiven_concat]

theorem collect_of_sorted (h : SortedByName es) : collect es = es := by
  refine eq_of_lookup (sorted_collect es) h fun n => ?_
  have hnames := nodup_names h
  have hreverse : (es.reverse.map (·.1)).Nodup := by
    rw [List.map_reverse]
    exact List.nodup_reverse.2 hnames
  rw [lookup_collect, lastGiven]
  ext v
  rw [lookup_eq_some_iff hreverse, List.mem_reverse, lookup_eq_some_iff hnames]

end Inspector.ByName
