import Inspector.Proofs.ClassMap
import Mathlib.Data.List.Basic
import Mathlib.Logic.Function.Basic

/-!
# Class maps as ordered maps

An ordered map keeps two things apart that the entries of a class map hold together: the concerns
in their order, and the classes of each. After any updates of the empty map the entries are those
of the ordered map. An entry may then be taken out where its concern stands first, since it stands
there alone; and the flattened classes come in the order of their first places in the entries.

    m.removeFirst k = (m.get? k, m.erase k)                                  (removeFirst_eq)
    (after {} us).entries = (Ordered.after us).entries                        (entries_ordered)
    l.eraseDups.Pairwise fun a b => l.idxOf a < l.idxOf b           (pairwise_idxOf_eraseDups)
-/

namespace Inspector

/-! ## Order of first occurrences -/

section

variable {α : Type} [BEq α] [LawfulBEq α]

theorem eraseDups_concat (l : List α) (a : α) :
    (l ++ [a]).eraseDups = if a ∈ l then l.eraseDups else l.eraseDups ++ [a] := by
  rw [List.eraseDups_append]
  split
  · next h => simp [List.removeAll, h]
  · next h => simp [List.removeAll, h, List.eraseDups_cons]

/-- The members of a list come out in the order of their first places in it. -/
theorem pairwise_idxOf_eraseDups (l : List α) :
    l.eraseDups.Pairwise fun a b => l.idxOf a < l.idxOf b := by
  induction l using List.reverseRecOn with
  | nil => simp
  | append_singleton l a ih =>
    -- A place in `l` stays what it is when the list grows behind it.
    have stays {b : α} (hb : b ∈ l.eraseDups) : (l ++ [a]).idxOf b = l.idxOf b :=
      List.idxOf_append_of_mem (List.mem_eraseDups.1 hb)
    have old : l.eraseDups.Pairwise fun b c => (l ++ [a]).idxOf b < (l ++ [a]).idxOf c := by
      refine ih.imp_of_mem fun hb hc h => ?_
      rw [stays hb, stays hc]
      exact h
    rw [eraseDups_concat]
    split
    · exact old
    · next ha =>
      rw [List.pairwise_append]
      refine ⟨old, List.pairwise_singleton _ _, fun b hb c hc => ?_⟩
      have hba : l.idxOf b < l.length := List.idxOf_lt_length_iff.2 (List.mem_eraseDups.1 hb)
      rw [List.mem_singleton.1 hc, stays hb, List.idxOf_append_of_notMem ha]
      omega

end

/-! ## Ordered maps -/

/-- Concerns in an order, and the classes of each concern. -/
structure Ordered (κ : Type) where
  order : List κ := []
  value : κ → List Text := fun _ => []

namespace Ordered

variable {κ : Type} [DecidableEq κ]

/-- A concern that is set goes to the back, one that is prepended to the front, and all others keep
their places. -/
def update (r : Ordered κ) : ClassMap.Update κ → Ordered κ
  | .set k cs => ⟨r.order.erase k ++ [k], Function.update r.value k cs⟩
  | .insert k c => ⟨r.order.erase k ++ [k], Function.update r.value k [c]⟩
  | .prepend k c => ⟨k :: r.order.erase k, Function.update r.value k [c]⟩
  | .erase k => { r with order := r.order.erase k }

def after (us : List (ClassMap.Update κ)) : Ordered κ := us.foldl update {}

omit [DecidableEq κ] in
/-- Each concern in its order, with its classes. -/
def entries (r : Ordered κ) : List (κ × List Text) := r.order.map fun k => (k, r.value k)

theorem after_concat (us : List (ClassMap.Update κ)) (u : ClassMap.Update κ) :
    after (us ++ [u]) = (after us).update u := by
  simp [after, List.foldl_append]

end Ordered

namespace ClassMap

variable {κ : Type} [DecidableEq κ]

/-! ## Taking out the first entry -/

/-- The classes in the first entry of `k`, and the map without that entry. -/
def removeFirst (m : ClassMap κ) (k : κ) : Option (List Text) × ClassMap κ :=
  match m.entries.findIdx? (·.1 == k) with
  | none => (none, m)
  | some i => (m.entries[i]?.map (·.2), ⟨m.entries.eraseIdx i⟩)

/-- A change that first takes out the first entry of its concern. -/
def edit (m : ClassMap κ) (u : Update κ) : Option (List Text) × ClassMap κ :=
  let (previous, rest) := m.removeFirst u.concern
  (previous,
    match u with
    | .set k cs => ⟨rest.entries ++ [(k, cs)]⟩
    | .insert k c => ⟨rest.entries ++ [(k, [c])]⟩
    | .prepend k c => ⟨(k, [c]) :: rest.entries⟩
    | .erase _ => rest)

def edited (us : List (Update κ)) : ClassMap κ := us.foldl (fun m u => (m.edit u).2) {}

theorem lookup_eq_find? (es : List (κ × List Text)) (k : κ) :
    es.lookup k = (es.find? (·.1 == k)).map (·.2) := by
  induction es with
  | nil => rfl
  | cons e es ih =>
    rw [List.lookup_cons, List.find?_cons, ih, BEq.comm]
    cases e.1 == k <;> rfl

theorem eraseP_eq_filter {es : List (κ × List Text)} (h : (es.map (·.1)).Nodup) (k : κ) :
    es.eraseP (·.1 == k) = es.filter (·.1 != k) := by
  induction es with
  | nil => rfl
  | cons e es ih =>
    obtain ⟨he, hes⟩ := List.nodup_cons.1 h
    by_cases hk : e.1 = k
    · -- The concern stands nowhere behind, so that the filter keeps the rest.
      have keep : es.filter (·.1 != k) = es := by
        rw [List.filter_eq_self]
        intro e' he'
        have : e'.1 ≠ k := fun h' => he (List.mem_map.2 ⟨e', he', h'.trans hk.symm⟩)
        simpa using this
      rw [List.eraseP_cons_of_pos (by simpa using hk), List.filter_cons_of_neg (by simpa using hk),
        keep]
    · rw [List.eraseP_cons_of_neg (by simpa using hk), List.filter_cons_of_pos (by simpa using hk),
        ih hes]

theorem removeFirst_eq {m : ClassMap κ} (h : (m.entries.map (·.1)).Nodup) (k : κ) :
    m.removeFirst k = (m.get? k, m.erase k) := by
  have found : m.get? k = ((m.entries.findIdx? (·.1 == k)).bind (m.entries[·]?)).map (·.2) := by
    rw [get?, lookup_eq_find?, List.find?_eq_bind_findIdx?_getElem?]
  have left := eraseP_eq_filter h k
  rw [List.eraseP_eq_eraseIdx] at left
  rw [removeFirst, erase, found, ← left]
  cases m.entries.findIdx? (·.1 == k) <;> rfl

theorem edit_eq_update {m : ClassMap κ} (h : (m.entries.map (·.1)).Nodup) (u : Update κ) :
    m.edit u = m.update u := by
  rw [edit, removeFirst_eq h]
  cases u <;> rfl

/-! ## Updates of the empty map -/

theorem update_distinct {m : ClassMap κ} (h : (m.entries.map (·.1)).Nodup) (u : Update κ) :
    ((m.update u).2.entries.map (·.1)).Nodup := by
  have free : m.Obeys fun _ _ => True := ⟨h, fun _ _ => trivial⟩
  cases u with
  | set k cs => exact (free.set trivial).distinct
  | insert k c => exact (free.insert trivial).distinct
  | prepend k c => exact (free.prepend trivial).distinct
  | erase k => exact (free.erase k).distinct

theorem after_distinct (us : List (Update κ)) :
    ((({} : ClassMap κ).after us).entries.map (·.1)).Nodup := by
  induction us using List.reverseRecOn with
  | nil => exact List.nodup_nil
  | append_singleton us u ih =>
    rw [after_concat]
    exact update_distinct ih u

theorem edited_eq_after (us : List (Update κ)) : edited us = ({} : ClassMap κ).after us := by
  induction us using List.reverseRecOn with
  | nil => rfl
  | append_singleton us u ih =>
    have step : edited (us ++ [u]) = ((edited us).edit u).2 := by simp [edited, List.foldl_append]
    rw [step, ih, edit_eq_update (after_distinct us), after_concat]

/-- An entry of another concern is not moved by an update. -/
theorem others_update (m : ClassMap κ) (u : Update κ) :
    (m.update u).2.entries.filter (·.1 != u.concern) =
      m.entries.filter (·.1 != u.concern) := by
  cases u <;>
    simp [update, Update.concern, set, insert, prepend, erase, List.filter_append,
      List.filter_filter]

theorem entries_erase_eq {m : ClassMap κ} {r : Ordered κ} (hr : r.order.Nodup)
    (h : m.entries = r.entries) (k : κ) (cs : List Text) :
    (m.erase k).entries =
      (r.order.erase k).map fun j => (j, Function.update r.value k cs j) := by
  have same : ∀ j ∈ r.order.erase k, (j, r.value j) = (j, Function.update r.value k cs j) := by
    intro j hj
    rw [Function.update_of_ne (hr.mem_erase_iff.1 hj).1]
  rw [← List.map_congr_left same, hr.erase_eq_filter, erase, h, Ordered.entries, List.filter_map]
  rfl

omit [DecidableEq κ] in
theorem order_nodup {m : ClassMap κ} {r : Ordered κ} (h : m.entries = r.entries)
    (hm : (m.entries.map (·.1)).Nodup) : r.order.Nodup := by
  have order : m.entries.map (·.1) = r.order := by
    rw [h, Ordered.entries, List.map_map]
    exact List.map_id _
  rw [← order]
  exact hm

theorem entries_update_eq {m : ClassMap κ} {r : Ordered κ} (hr : r.order.Nodup)
    (h : m.entries = r.entries) (u : Update κ) : (m.update u).2.entries = (r.update u).entries := by
  have set (k : κ) (cs : List Text) :
      (m.erase k).entries ++ [(k, cs)] = (r.update (.set k cs)).entries := by
    rw [entries_erase_eq hr h k cs]
    simp [Ordered.update, Ordered.entries]
  cases u with
  | set k cs => exact set k cs
  | insert k c => exact set k [c]
  | prepend k c =>
    show (k, [c]) :: (m.erase k).entries = (r.update (.prepend k c)).entries
    rw [entries_erase_eq hr h k [c]]
    simp [Ordered.update, Ordered.entries]
  | erase k =>
    have own := entries_erase_eq hr h k (r.value k)
    rw [Function.update_eq_self] at own
    exact own

theorem entries_ordered (us : List (Update κ)) :
    (({} : ClassMap κ).after us).entries = (Ordered.after us).entries := by
  induction us using List.reverseRecOn with
  | nil => rfl
  | append_singleton us u ih =>
    rw [after_concat, Ordered.after_concat]
    exact entries_update_eq (order_nodup ih (after_distinct us)) ih u

/-- A class map after any updates of the empty one is an ordered map: it makes the same changes
whether or not it looks for a concern behind the first entry that has it, an update gives back what
a look-up found before, and what is flattened is every class once, where it first stands. -/
theorem refines_ordered (us : List (Update κ)) :
    let m := ({} : ClassMap κ).after us
    let all := m.entries.flatMap (·.2)
    edited us = m ∧
    (m.entries.map (·.1)).Nodup ∧
    m.entries = (Ordered.after us).entries ∧
    (∀ u, m.edit u = (m.get? u.concern, ({} : ClassMap κ).after (us ++ [u])) ∧
      (m.edit u).2.entries.filter (·.1 != u.concern) = m.entries.filter (·.1 != u.concern)) ∧
    (∀ k, (m.edit (.erase k)).2.get? k = none ∧ (m.edit (.erase k)).2.contains k = false) ∧
    m.classes.Nodup ∧
    (∀ c, c ∈ m.classes ↔ c ∈ all) ∧
    m.classes.Pairwise fun c d => all.idxOf c < all.idxOf d := by
  intro m all
  have distinct : (m.entries.map (·.1)).Nodup := after_distinct us
  refine ⟨edited_eq_after us, distinct, entries_ordered us, fun u => ?_, fun k => ?_,
    nodup_classes m, fun c => List.mem_eraseDups, pairwise_idxOf_eraseDups all⟩
  · rw [edit_eq_update distinct, after_concat]
    exact ⟨rfl, others_update m u⟩
  · rw [edit_eq_update distinct]
    have none : (m.erase k).get? k = none := get?_erase_self m k
    refine ⟨none, ?_⟩
    show ((m.erase k).get? k).isSome = false
    rw [none]
    rfl

/-- A class that two concerns share comes out where the first of them stands. -/
example : (({} : ClassMap Nat).after
    [.insert 0 "a".toList, .set 1 ["b".toList, "c".toList], .prepend 2 "c".toList,
      .insert 0 "b".toList]).classes = ["c".toList, "b".toList] := by decide

end ClassMap

end Inspector
