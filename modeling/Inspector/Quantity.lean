import Inspector.Number.Numeral
import Inspector.Number.Shortest
import Inspector.Text.Blank

/-!
# Quantities

A quantity is a decimal numeral with an optional unit behind it: `100px`, `-90deg`, `37.5%`, `12`.

    ofText? t = some q ↔ t, trimmed, is a numeral followed by the spelling of `q.unit`
-/

namespace Inspector

open Text

/-- The units a quantity may be written with. -/
inductive Measure where
  | px
  | deg
  | percent
  deriving DecidableEq, Repr

namespace Measure

def spelling : Measure → Text
  | .px => "px"
  | .deg => "deg"
  | .percent => "%"

/-- The unit written by a whole text, in any case; the empty text is no unit, other texts are
refused. -/
def ofSuffix? (t : Text) : Option (Option Measure) :=
  if t = [] then some none
  else if lower t = "px" then some (some .px)
  else if lower t = "deg" then some (some .deg)
  else if lower t = "%" then some (some .percent)
  else none

end Measure

/-- A number with an optional unit. -/
structure Quantity where
  magnitude : Binary64
  unit : Option Measure
  deriving DecidableEq, Repr

namespace Quantity

/-- The quantity that a whole text is, blanks at its ends aside. -/
def ofText? (t : Text) : Option Quantity := do
  let (numeral, rest) ← Numeral.read? (trim t)
  let unit ← Measure.ofSuffix? rest
  some ⟨numeral.value, unit⟩

/-- A bare number counts as pixels. -/
def isPixels (q : Quantity) : Bool := q.unit == none || q.unit == some .px

end Quantity

end Inspector
