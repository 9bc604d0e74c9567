import Inspector.Text.Basic

/-!
# Entries by name

Named values are kept sorted by name: by code point, which is the order of the names' UTF-8 octets
as well. A value put under a name that is there replaces the one of that name.

    SortedByName es → (put n v es).1 = es.lookup n                                   (fst_put)
    SortedByName es → (put n v es).2.lookup m = if m = n then some v else es.lookup m
                                                                                  (lookup_put)
-/

namespace Inspector

/-- Every name stands before all later ones, so that none comes twice. -/
def SortedByName {α : Type} (entries : List (Text × α)) : Prop := entries.Pairwise (·.1 < ·.1)

namespace ByName

variable {α : Type}

/-! ## Algorithm -/

/-- A value put in its place among sorted entries, with the value that it replaces. -/
def put (name : Text) (v : α) : List (Text × α) → Option α × List (Text × α)
  | [] => (none, [(name, v)])
  | (m, w) :: rest =>
    if name < m then (none, (name, v) :: (m, w) :: rest)
    else if m < name then
      let later := put name v rest
      (later.1, (m, w) :: later.2)
    else (some w, (name, v) :: rest)

/-- Entries in any order, put in one after the other; of equal names the last one counts. -/
def collect (entries : List (Text × α)) : List (Text × α) :=
  entries.foldl (fun es e => (put e.1 e.2 es).2) []

/-! ## Lemmas -/

variable {name : Text} {v : α} {entries : List (Text × α)}

theorem mem_put {x : Text × α} (h : x ∈ (put name v entries).2) :
    x = (name, v) ∨ x ∈ entries := by
  induction entries with
  | nil => simpa [put] using h
  | cons y rest ih =>
    obtain ⟨m, w⟩ := y
    simp only [put] at h
    split at h
    · simpa using h
    · split at h
      · rcases List.mem_cons.1 h with h | h
        · simp [h]
        · rcases ih h with h | h
          · exact .inl h
          · exact .inr (List.mem_cons_of_mem _ h)
      · rcases List.mem_cons.1 h with h | h
        · exact .inl h
        · exact .inr (List.mem_cons_of_mem _ h)

theorem sorted_put (name : Text) (v : α) (h : SortedByName entries) :
    SortedByName (put name v entries).2 := by
  induction entries with
  | nil => exact List.pairwise_singleton _ _
  | cons y rest ih =>
    obtain ⟨m, w⟩ := y
    obtain ⟨hm, hrest⟩ := List.pairwise_cons.1 h
    simp only [put]
    split
    · next hlt =>
      refine List.pairwise_cons.2 ⟨fun x hx => ?_, h⟩
      rcases List.mem_cons.1 hx with rfl | hx
      · exact hlt
      · exact List.lt_trans hlt (hm x hx)
    · next hge =>
      split
      · next hlt =>
        refine List.pairwise_cons.2 ⟨fun x hx => ?_, ih hrest⟩
        rcases mem_put hx with rfl | hx
        · exact hlt
        · exact hm x hx
      · next hle =>
        have heq : name = m := Std.Trichotomous.trichotomous name m hge hle
        subst heq
        exact List.pairwise_cons.2 ⟨hm, hrest⟩

theorem lookup_put (h : SortedByName entries) (name m : Text) (v : α) :
    (put name v entries).2.lookup m = if m = name then some v else entries.lookup m := by
  induction entries with
  | nil =>
    by_cases hm : m = name
    · simp [put, hm]
    · have : (m == name) = false := by simpa using hm
      simp [put, List.lookup_cons, hm, this]
  | cons y rest ih =>
    obtain ⟨k, w⟩ := y
    have ih := ih (List.pairwise_cons.1 h).2
    simp only [put]
    split
    · by_cases hm : m = name
      · simp [hm]
      · have : (m == name) = false := by simpa using hm
        rw [List.lookup_cons, this, if_neg hm]
    · next hge =>
      split
      · next hlt =>
        rw [List.lookup_cons, List.lookup_cons, ih]
        by_cases hk : m = k
        · have hn : m ≠ name := by
            rintro rfl
            exact absurd hlt (hk ▸ List.lt_irrefl m)
          simp [hk, hk ▸ hn]
        · have : (m == k) = false := by simpa using hk
          rw [this]
      · next hle =>
        have heq : name = k := Std.Trichotomous.trichotomous name k hge hle
        subst heq
        by_cases hm : m = name
        · simp [hm]
        · have : (m == name) = false := by simpa using hm
          rw [List.lookup_cons, List.lookup_cons, this, if_neg hm]

end ByName

end Inspector
