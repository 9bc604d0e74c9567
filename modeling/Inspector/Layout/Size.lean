import Inspector.Text.Basic

/-!
# Dimensions

The six dimensions of an element, and how they are named: by key (`w`, `width`) or at the head of a
bare item (`w-100px`).
-/

namespace Inspector.Layout

open Text

inductive Dimension where
  | width
  | height
  | minWidth
  | maxWidth
  | minHeight
  | maxHeight
  deriving DecidableEq, Repr

namespace Dimension

/-- The longer heads first. -/
def all : List Dimension := [.minWidth, .maxWidth, .minHeight, .maxHeight, .width, .height]

def short : Dimension → Text
  | .width => "w"
  | .height => "h"
  | .minWidth => "min-w"
  | .maxWidth => "max-w"
  | .minHeight => "min-h"
  | .maxHeight => "max-h"

def name : Dimension → Text
  | .width => "width"
  | .height => "height"
  | .minWidth => "min-width"
  | .maxWidth => "max-width"
  | .minHeight => "min-height"
  | .maxHeight => "max-height"

/-- The dimension of a key in lower case. -/
def ofKey? (key : Text) : Option Dimension := all.find? fun d => key == d.short || key == d.name

/-- The dimension and the value of an item such as `min-w-200px`. -/
def ofItem? (item : Text) : Option (Dimension × Text) :=
  all.findSome? fun d => (afterWord? (d.short ++ "-") item).map fun value => (d, value)

/-- The bounds, as opposed to width and height, exist in Auto layout alone. -/
def isBound : Dimension → Bool
  | .width | .height => false
  | _ => true

end Dimension

end Inspector.Layout
