import Inspector.Text.Basic

/-!
# Class maps

A class map holds, for each concern (one visual aspect of an element), the classes that represent
it now. Setting a concern moves it to the end of the order, so that the classes come out in the
order in which they were last given; flattening keeps the first of equal classes.

    (m.set k cs).get? k = some cs                                                (get?_set_self)
    c ∈ m.classes ↔ ∃ e ∈ m.entries, c ∈ e.2                                     (mem_classes_iff)
-/

namespace Inspector

/-- The classes of each concern, in the order in which the concerns were last set. -/
structure ClassMap (κ : Type) where
  entries : List (κ × List Text) := []
  deriving DecidableEq, Repr

namespace ClassMap

variable {κ : Type} [DecidableEq κ]

/-! ## Algorithm -/

def get? (m : ClassMap κ) (k : κ) : Option (List Text) := m.entries.lookup k

def contains (m : ClassMap κ) (k : κ) : Bool := (m.get? k).isSome

def erase (m : ClassMap κ) (k : κ) : ClassMap κ := ⟨m.entries.filter (·.1 != k)⟩

def eraseAll (m : ClassMap κ) (ks : List κ) : ClassMap κ := ks.foldl erase m

/-- The classes of `k` replaced, with `k` last in the order. -/
def set (m : ClassMap κ) (k : κ) (classes : List Text) : ClassMap κ :=
  ⟨(m.erase k).entries ++ [(k, classes)]⟩

/-- A single class for `k`, last in the order. -/
def insert (m : ClassMap κ) (k : κ) (c : Text) : ClassMap κ := m.set k [c]

/-- A single class for `k`, first in the order. -/
def prepend (m : ClassMap κ) (k : κ) (c : Text) : ClassMap κ := ⟨(k, [c]) :: (m.erase k).entries⟩

def isEmpty (m : ClassMap κ) : Bool := m.entries.isEmpty

/-- All classes in order, each where it occurs first. -/
def classes (m : ClassMap κ) : List Text := (m.entries.flatMap (·.2)).eraseDups

/-- One change of a class map. -/
inductive Update (κ : Type) where
  | set (k : κ) (classes : List Text)
  | insert (k : κ) (c : Text)
  | prepend (k : κ) (c : Text)
  | erase (k : κ)
  deriving DecidableEq, Repr

def Update.concern : Update κ → κ
  | .set k _ | .insert k _ | .prepend k _ | .erase k => k

/-- The classes the change replaces, and the map after it. -/
def update (m : ClassMap κ) (u : Update κ) : Option (List Text) × ClassMap κ :=
  (m.get? u.concern,
    match u with
    | .set k cs => m.set k cs
    | .insert k c => m.insert k c
    | .prepend k c => m.prepend k c
    | .erase k => m.erase k)

/-! ## Lemmas -/

omit [DecidableEq κ] in
theorem mem_classes_iff (m : ClassMap κ) (c : Text) :
    c ∈ m.classes ↔ ∃ e ∈ m.entries, c ∈ e.2 := by
  simp [classes, List.mem_eraseDups]

theorem mem_entries_erase_iff (m : ClassMap κ) (k : κ) (e : κ × List Text) :
    e ∈ (m.erase k).entries ↔ e ∈ m.entries ∧ e.1 ≠ k := by
  simp [erase]

theorem lookup_filter_self (es : List (κ × List Text)) (k : κ) :
    (es.filter (·.1 != k)).lookup k = none := by
  induction es with
  | nil => rfl
  | cons e es ih =>
    by_cases h : e.1 = k
    · simpa [h] using ih
    · rw [List.filter_cons_of_pos (by simpa using h), List.lookup_cons, ih]
      have : (k == e.1) = false := by simpa using fun h' => h h'.symm
      rw [this]

theorem get?_erase_self (m : ClassMap κ) (k : κ) : (m.erase k).get? k = none :=
  lookup_filter_self m.entries k

theorem get?_set_self (m : ClassMap κ) (k : κ) (cs : List Text) : (m.set k cs).get? k = some cs := by
  have h := get?_erase_self m k
  unfold get? at h
  simp [set, get?, List.lookup_append, h]

end ClassMap

end Inspector
