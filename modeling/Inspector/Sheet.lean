import Inspector.ByName
import Inspector.Element
import Inspector.Tree

/-!
# Sheets

A sheet holds named elements, sorted by name. Inserting under a name that is there replaces its
element.

    (s.insert n e).get? m = if m = n then some e else s.get? m                   (get?_insert)
-/

namespace Inspector

/-- Named elements in the order of their names. -/
structure Sheet where
  entries : List (Text × Element)
  sorted : SortedByName entries

namespace Sheet

/-! ## Algorithm -/

/-- The sheet without elements. -/
def empty : Sheet := ⟨[], List.Pairwise.nil⟩

/-- An element given to a name: the element that it replaces, and the sheet after it. -/
def replace (s : Sheet) (name : Text) (e : Element) : Option Element × Sheet :=
  ((ByName.put name e s.entries).1,
    ⟨(ByName.put name e s.entries).2, ByName.sorted_put name e s.sorted⟩)

/-- The element of a name replaced or added. -/
def insert (s : Sheet) (name : Text) (e : Element) : Sheet := (s.replace name e).2

def get? (s : Sheet) (name : Text) : Option Element := s.entries.lookup name

/-- The names in their order. -/
def names (s : Sheet) : List Text := s.entries.map (·.1)

def size (s : Sheet) : Nat := s.entries.length

def isEmpty (s : Sheet) : Bool := s.entries.isEmpty

/-- The entries in this order put into an empty sheet; of equal names the last one counts. -/
def ofList (entries : List (Text × Element)) : Sheet :=
  entries.foldl (fun s e => s.insert e.1 e.2) empty

/-- Every element inspected, in the order of the names. -/
def inspectAll (s : Sheet) : List (Text × Inspection) :=
  s.entries.map fun e => (e.1, e.2.inspect)

/-- A sheet as a tree, with the properties that are present. -/
def toTree (s : Sheet) : Tree :=
  .object (s.entries.map fun e =>
    (e.1, .object (e.2.present.map fun p => (p.1.name, .text p.2))))

/-! ## Lemmas -/

theorem get?_insert (s : Sheet) (n m : Text) (e : Element) :
    (s.insert n e).get? m = if m = n then some e else s.get? m :=
  ByName.lookup_put s.sorted n m e

end Sheet

end Inspector
