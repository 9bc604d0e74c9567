import Inspector.Text.Blank

/-!
# Alignments

A cell of the grid of three rows and three columns. Which of its two components lies on the main
axis depends on the direction in which the children flow.
-/

namespace Inspector.Layout

open Text

inductive Flow where
  | row
  | column
  deriving DecidableEq, Repr

inductive Place where
  | start
  | center
  | finish
  deriving DecidableEq, Repr

def Place.name : Place → Text
  | .start => "start"
  | .center => "center"
  | .finish => "end"

structure Alignment where
  vertical : Place
  horizontal : Place
  deriving DecidableEq, Repr

namespace Alignment

def table : List (Text × Alignment) :=
  [("top-left", ⟨.start, .start⟩), ("top-center", ⟨.start, .center⟩), ("top", ⟨.start, .center⟩),
    ("top-right", ⟨.start, .finish⟩), ("center-left", ⟨.center, .start⟩),
    ("left", ⟨.center, .start⟩), ("center", ⟨.center, .center⟩),
    ("center-right", ⟨.center, .finish⟩), ("right", ⟨.center, .finish⟩),
    ("bottom-left", ⟨.finish, .start⟩), ("bottom-center", ⟨.finish, .center⟩),
    ("bottom", ⟨.finish, .center⟩), ("bottom-right", ⟨.finish, .finish⟩)]

def ofText? (value : Text) : Option Alignment := table.lookup (lower (trim value))

/-- The component on the main axis; children flow in a row unless a column is asked for. -/
def main (a : Alignment) (flow : Option Flow) : Place :=
  if flow = some .column then a.vertical else a.horizontal

/-- The component across the main axis. -/
def cross (a : Alignment) (flow : Option Flow) : Place :=
  if flow = some .column then a.horizontal else a.vertical

end Alignment

end Inspector.Layout
