import Inspector.Appearance
import Inspector.Fill
import Inspector.Layout
import Inspector.Position
import Inspector.Stroke

/-!
# Elements

An element is described by the strings of its five properties, each of which may be absent. What its
inspection shows is the union of the five reports, in the order layout, position, appearance, fill,
stroke; a class that occurs twice is kept where it occurs first.

    e.inspect.classes = (e.reports.flatMap (·.classes)).eraseDups
-/

namespace Inspector

/-- The property strings of an element. -/
structure Element where
  layout : Option Text := none
  position : Option Text := none
  appearance : Option Text := none
  fill : Option Text := none
  stroke : Option Text := none
  deriving DecidableEq, Repr

/-- What an element comes to: its classes, and what is wrong with its properties. -/
structure Inspection where
  classes : List Text
  /-- The element leaves the layout for the topmost layer. -/
  isFixed : Bool
  errors : List Text
  warnings : List Text
  deriving DecidableEq, Repr

namespace Inspection

/-- The classes as the value of a `class` attribute. -/
def classAttribute (t : Inspection) : Text := Text.joined " " t.classes

def hasErrors (t : Inspection) : Bool := !t.errors.isEmpty

end Inspection

namespace Element

def get (e : Element) : Property → Option Text
  | .layout => e.layout
  | .position => e.position
  | .appearance => e.appearance
  | .fill => e.fill
  | .stroke => e.stroke

def set (e : Element) (p : Property) (value : Option Text) : Element :=
  match p with
  | .layout => { e with layout := value }
  | .position => { e with position := value }
  | .appearance => { e with appearance := value }
  | .fill => { e with fill := value }
  | .stroke => { e with stroke := value }

def reports (e : Element) : List Report :=
  [(Layout.read e.layout).report, (Position.read e.position).report, Appearance.read e.appearance,
    Fill.read e.fill, Stroke.read e.stroke]

def inspect (e : Element) : Inspection where
  classes := (e.reports.flatMap (·.classes)).eraseDups
  isFixed := (Position.read e.position).isFixed
  errors := e.reports.flatMap (·.errors)
  warnings := e.reports.flatMap (·.warnings)

/-- The properties that are present, in order, with their names. -/
def present (e : Element) : List (Property × Text) :=
  Property.all.filterMap fun p => (e.get p).map fun s => (p, s)

end Element

end Inspector
