import Inspector.ClassMap

/-!
# Drafts and reports

A reader of a property string fills a draft: the classes of each concern and the problems found so
far. Errors are violated contracts, warnings are advice; neither stops the reading. The finished
draft becomes a report, in which every message names its property.

    (d.put k cs again).classes = d.classes.set k cs                              (classes_put)
-/

namespace Inspector

/-- The five sections of an element. -/
inductive Property where
  | layout
  | position
  | appearance
  | fill
  | stroke
  deriving DecidableEq, Repr

def Property.name : Property → Text
  | .layout => "layout"
  | .position => "position"
  | .appearance => "appearance"
  | .fill => "fill"
  | .stroke => "stroke"

/-- The properties in the order in which they are listed everywhere. -/
def Property.all : List Property := [.layout, .position, .appearance, .fill, .stroke]

def Property.ofName? (name : Text) : Option Property := all.find? (·.name == name)

/-- What one property string comes to. -/
structure Report where
  classes : List Text := []
  errors : List Text := []
  warnings : List Text := []
  deriving DecidableEq, Repr

namespace Report

def isEmpty (r : Report) : Bool := r.classes.isEmpty && r.errors.isEmpty && r.warnings.isEmpty

def hasErrors (r : Report) : Bool := !r.errors.isEmpty

def hasClass (r : Report) (c : Text) : Bool := r.classes.contains c

end Report

/-- The classes given so far, with the errors of type `ε` and the warnings of type `ω` in the order
in which they were found. -/
structure Draft (κ ε ω : Type) where
  classes : ClassMap κ := {}
  errors : List ε := []
  warnings : List ω := []
  deriving DecidableEq, Repr

namespace Draft

variable {κ ε ω : Type} [DecidableEq κ]

/-! ## Algorithm -/

def error (d : Draft κ ε ω) (e : ε) : Draft κ ε ω := { d with errors := d.errors ++ [e] }

def warn (d : Draft κ ε ω) (w : ω) : Draft κ ε ω := { d with warnings := d.warnings ++ [w] }

/-- The classes of `k` replaced, with the warning `again` if there were other ones. -/
def put (d : Draft κ ε ω) (k : κ) (classes : List Text) (again : ω) : Draft κ ε ω :=
  let d' := { d with classes := d.classes.set k classes }
  match d.classes.get? k with
  | some previous => if previous = classes then d' else d'.warn again
  | none => d'

/-- A single class for `k`, first in the order. -/
def prepend (d : Draft κ ε ω) (k : κ) (c : Text) : Draft κ ε ω :=
  { d with classes := d.classes.prepend k c }

/-- A single class for `k`, without any warning. -/
def insert (d : Draft κ ε ω) (k : κ) (c : Text) : Draft κ ε ω :=
  { d with classes := d.classes.insert k c }

def erase (d : Draft κ ε ω) (k : κ) : Draft κ ε ω := { d with classes := d.classes.erase k }

def eraseAll (d : Draft κ ε ω) (ks : List κ) : Draft κ ε ω :=
  { d with classes := d.classes.eraseAll ks }

/-- `k` erased, with the warning `w` if it had classes. -/
def discard (d : Draft κ ε ω) (k : κ) (w : ω) : Draft κ ε ω :=
  if d.classes.contains k then (d.erase k).warn w else d

def contains (d : Draft κ ε ω) (k : κ) : Bool := d.classes.contains k

omit [DecidableEq κ] in
/-- The finished report of a property, given the wording of its errors and warnings. -/
def report (d : Draft κ ε ω) (p : Property) (errorText : ε → Text) (warningText : ω → Text) :
    Report where
  classes := d.classes.classes
  errors := d.errors.map fun e => p.name ++ ": " ++ errorText e
  warnings := d.warnings.map fun w => p.name ++ ": " ++ warningText w

/-! ## Lemmas -/

theorem classes_put (d : Draft κ ε ω) (k : κ) (cs : List Text) (again : ω) :
    (d.put k cs again).classes = d.classes.set k cs := by
  unfold put
  split
  · split <;> rfl
  · rfl

theorem errors_put (d : Draft κ ε ω) (k : κ) (cs : List Text) (again : ω) :
    (d.put k cs again).errors = d.errors := by
  unfold put
  split
  · split <;> rfl
  · rfl

end Draft

end Inspector
