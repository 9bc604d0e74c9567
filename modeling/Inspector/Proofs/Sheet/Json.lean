import Inspector.Proofs.Json.Event
import Inspector.Proofs.Sheet.Store
import Inspector.Sheet.Json

/-!
# Sheets read back from JSON

A sheet is read as it was written, on one line or on lines of its own. Each property that is present
sets itself in an empty element and an absent one stays absent; each element is inserted behind the
ones before it.

    e.present.foldl (set ..) {} = e                                            (foldl_set_present)
    readJson (writeJson s) = .ok s                                       (written_sheet_read_back)
-/

namespace Inspector

open Text Json

/-! ## Properties -/

theorem Property.ofName?_name (p : Property) : Property.ofName? p.name = some p := by
  cases p <;> rfl

namespace Element

theorem get_set (e : Element) (p q : Property) (value : Option Text) :
    (e.set p value).get q = if q = p then value else e.get q := by
  cases p <;> cases q <;> rfl

theorem ext {e e' : Element} (h : ∀ p, e.get p = e'.get p) : e = e' := by
  have hl := h .layout
  have hp := h .position
  have ha := h .appearance
  have hf := h .fill
  have hs := h .stroke
  cases e
  cases e'
  simp only [get] at hl hp ha hf hs
  rw [hl, hp, ha, hf, hs]

/-- The given properties of `e` set in another element, where they are present. -/
theorem get_foldl_set (e d : Element) (ps : List Property) (q : Property) :
    ((ps.filterMap fun p => (e.get p).map fun s => (p, s)).foldl
      (fun d p => d.set p.1 (some p.2)) d).get q =
      if q ∈ ps ∧ (e.get q).isSome then e.get q else d.get q := by
  induction ps generalizing d with
  | nil => simp
  | cons p ps ih =>
    cases hp : e.get p with
    | none =>
      rw [List.filterMap_cons_none (by rw [hp]; rfl), ih]
      by_cases hq : q = p
      · subst hq
        simp [hp]
      · simp [hq]
    | some s =>
      rw [List.filterMap_cons_some (b := (p, s)) (by rw [hp]; rfl), List.foldl_cons, ih, get_set]
      by_cases hq : q = p
      · subst hq
        simp [hp]
      · simp [hq]

/-- The properties that are present make the element. -/
theorem foldl_set_present (e : Element) :
    e.present.foldl (fun d p => d.set p.1 (some p.2)) {} = e := by
  apply ext
  intro q
  rw [present, get_foldl_set]
  have every : q ∈ Property.all := by cases q <;> decide
  have absent : ({} : Element).get q = none := by cases q <;> rfl
  cases hq : e.get q with
  | none => simp [absent]
  | some s => simp [every]

theorem nodup_present (e : Element) : (e.present.map (·.1)).Nodup := by
  have own : ∀ p p' q, q ∈ ((e.get p).map fun s => (p, s)).map (·.1) →
      q ∈ ((e.get p').map fun s => (p', s)).map (·.1) → p = p' := by
    intro p p' q hp hp'
    simp only [Option.map_map, Option.mem_def, Option.map_eq_some_iff,
      Function.comp_apply] at hp hp'
    obtain ⟨_, _, rfl⟩ := hp
    obtain ⟨_, _, h⟩ := hp'
    exact h.symm
  rw [present, List.map_filterMap]
  exact List.Nodup.filterMap own (by decide)

end Element

namespace Sheet

/-! ## Elements -/

/-- Properties as the fields of an object. -/
def propertyFields (ps : List (Property × Text)) : List (Text × Tree) :=
  ps.map fun p => (p.1.name, .text p.2)

/-- The fields of new properties set these. -/
theorem read_fields (s : Sheet) (name : Text) (e : Element) (seen : List Property)
    {ps : List (Property × Text)} (distinct : (ps.map (·.1)).Nodup)
    (unseen : ∀ p ∈ ps, p.1 ∉ seen) :
    ∃ seen', (Tree.fieldEvents (propertyFields ps)).foldlM step ⟨s, .fields name e seen⟩ =
      .ok ⟨s, .fields name (ps.foldl (fun d p => d.set p.1 (some p.2)) e) seen'⟩ := by
  induction ps generalizing e seen with
  | nil => exact ⟨seen, rfl⟩
  | cons p ps ih =>
    obtain ⟨q, value⟩ := p
    obtain ⟨hq, hps⟩ := List.nodup_cons.1 distinct
    have key : step ⟨s, .fields name e seen⟩ (.key q.name) = .ok ⟨s, .field name e seen q⟩ := by
      have fresh : q ∉ seen := unseen (q, value) List.mem_cons_self
      simp [step, Property.ofName?_name, fresh]
    have field : step ⟨s, .field name e seen q⟩ (.text value) =
        .ok ⟨s, .fields name (e.set q (some value)) (q :: seen)⟩ := rfl
    have unseen' : ∀ p ∈ ps, p.1 ∉ q :: seen := by
      intro p hp hmem
      rcases List.mem_cons.1 hmem with heq | hmem
      · exact hq (List.mem_map.2 ⟨p, hp, heq⟩)
      · exact unseen p (List.mem_cons_of_mem _ hp) hmem
    obtain ⟨seen', rest⟩ := ih (e.set q (some value)) (q :: seen) hps unseen'
    refine ⟨seen', ?_⟩
    calc (Tree.fieldEvents (propertyFields ((q, value) :: ps))).foldlM step ⟨s, .fields name e seen⟩
        = (step ⟨s, .fields name e seen⟩ (.key q.name)).bind fun r =>
            (step r (.text value)).bind fun r =>
              (Tree.fieldEvents (propertyFields ps)).foldlM step r := by
          simp [propertyFields, Tree.fieldEvents, Tree.events, bind]
      _ = _ := by
          rw [key, Except.bind, field]
          exact rest

/-- An element, as it is written in a sheet. -/
def elementTree (e : Element) : Tree := .object (propertyFields e.present)

/-- The field of an element inserts it. -/
theorem read_element (s : Sheet) (name : Text) (e : Element) :
    (Event.key name :: (elementTree e).events).foldlM step ⟨s, .elements⟩ =
      .ok ⟨s.insert name e, .elements⟩ := by
  obtain ⟨seen, fields⟩ := read_fields s name {} [] e.nodup_present fun p _ => List.not_mem_nil
  rw [Element.foldl_set_present] at fields
  calc (Event.key name :: (elementTree e).events).foldlM step ⟨s, .elements⟩
      = List.foldlM step ⟨s, .fields name {} []⟩
          (Tree.fieldEvents (propertyFields e.present) ++ [.objectEnd]) := by
        rw [elementTree, Tree.events]
        rfl
    _ = .ok ⟨s.insert name e, .elements⟩ := by
        rw [List.foldlM_append, fields]
        rfl

theorem read_elements (s : Sheet) (es : List (Text × Element)) :
    (Tree.fieldEvents (es.map fun e => (e.1, elementTree e.2))).foldlM step ⟨s, .elements⟩ =
      .ok ⟨es.foldl (fun s e => s.insert e.1 e.2) s, .elements⟩ := by
  induction es generalizing s with
  | nil => rfl
  | cons e es ih =>
    rw [List.map_cons, Tree.fieldEvents, List.foldlM_append, read_element, List.foldl_cons]
    exact ih (s.insert e.1 e.2)

/-! ## Sheets -/

theorem read_events (s : Sheet) :
    List.foldlM step {} (s.toTree.events ++ [.finish]) = .ok ⟨s, .done⟩ := by
  have elements := read_elements empty s.entries
  have whole : s.entries.foldl (fun s e => s.insert e.1 e.2) empty = s := ofList_entries s
  rw [whole] at elements
  calc List.foldlM step {} (s.toTree.events ++ [.finish])
      = List.foldlM step ⟨empty, .elements⟩
          (Tree.fieldEvents (s.entries.map fun e => (e.1, elementTree e.2)) ++
            [.objectEnd, .finish]) := by
        rw [toTree, Tree.events, List.append_assoc, List.cons_append]
        rfl
    _ = .ok ⟨s, .done⟩ := by
        rw [List.foldlM_append, elements]
        rfl

theorem readJson_of_events {s : Sheet} {t : Text} (h : events t = s.toTree.events ++ [.finish]) :
    readJson t = .ok s := by
  rw [readJson, h, read_events]
  rfl

/-- A sheet is read back as it was written, on one line or on lines of its own: the same names, with
the same properties present, be they empty or not, and the same ones absent. -/
theorem written_sheet_read_back (s : Sheet) :
    readJson (writeJson s) = .ok s ∧ readJson (Json.document s.toTree) = .ok s := by
  constructor
  · exact readJson_of_events (events_compact s.toTree)
  · exact readJson_of_events (events_document s.toTree)

end Sheet

end Inspector
