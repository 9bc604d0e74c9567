import Inspector.Json.Event
import Inspector.Json.Printer
import Inspector.Sheet
import Inspector.Text.Printable

/-!
# Sheets in JSON

A sheet is an object of elements; an element is an object of its properties, or a list of up to five
of them in their order. A property is a string, or `null` for an absent one. A name may come again
and the last element counts; a property may not. The events of the text are taken one by one, so the
first thing wrong with the text decides the error, be it its shape or its form.

    readJson t = (events t).foldlM step start, taken to its end
-/

namespace Inspector.Sheet

open Json

/-! ## Errors -/

/-- What may stand at a place of a sheet. -/
inductive Expected where
  | sheet
  | element
  | property
  deriving DecidableEq, Repr

def Expected.name : Expected → Text
  | .sheet => "a map"
  | .element => "struct StyleProps"
  | .property => "a string"

/-- How a JSON text fails to be a sheet. -/
inductive JsonError where
  | malformed
  | wrongType (found : Event) (expected : Expected)
  | unknownProperty (name : Text)
  | repeatedProperty (p : Property)
  deriving DecidableEq, Repr

/-- An event as messages describe it. -/
def eventText : Event → Text
  | .null => "null"
  | .bool b => "boolean `" ++ boolText b ++ "`"
  | .number (.integer n) => "integer `" ++ integerText n ++ "`"
  | .number (.floating x) => "floating point `" ++ floatingText x ++ "`"
  | .text t => "string " ++ Text.shownQuoted t
  | .listStart => "sequence"
  | .objectStart => "map"
  | _ => []

/-- The message of an error of shape; a malformed text has none. -/
def JsonError.message? : JsonError → Option Text
  | .malformed => none
  | .wrongType found expected =>
    some ("invalid JSON style sheet: invalid type: " ++ eventText found ++ ", expected " ++
      expected.name)
  | .unknownProperty name =>
    some ("invalid JSON style sheet: unknown field `" ++ name ++
      "`, expected one of `layout`, `position`, `appearance`, `fill`, `stroke`")
  | .repeatedProperty p => some ("invalid JSON style sheet: duplicate field `" ++ p.name ++ "`")

/-! ## Reading -/

/-- The place in a sheet that a reader has come to. -/
inductive Place where
  | start
  | elements
  | element (name : Text)
  | fields (name : Text) (e : Element) (seen : List Property)
  | field (name : Text) (e : Element) (seen : List Property) (p : Property)
  | items (name : Text) (e : Element) (missing : List Property)
  | closed
  | done
  deriving DecidableEq, Repr

/-- The elements read so far, and the place come to. -/
structure Reader where
  sheet : Sheet := empty
  place : Place := .start

/-- A property, present or absent. -/
def propertyOf (ev : Event) : Except JsonError (Option Text) :=
  match ev with
  | .null => .ok none
  | .text t => .ok (some t)
  | .malformed => .error .malformed
  | _ => .error (.wrongType ev .property)

def step (r : Reader) (ev : Event) : Except JsonError Reader :=
  match r.place, ev with
  | .start, .objectStart => .ok { r with place := .elements }
  | .start, .malformed => .error .malformed
  | .start, _ => .error (.wrongType ev .sheet)
  | .elements, .key name => .ok { r with place := .element name }
  | .elements, .objectEnd => .ok { r with place := .closed }
  | .element name, .objectStart => .ok { r with place := .fields name {} [] }
  | .element name, .listStart => .ok { r with place := .items name {} Property.all }
  | .element _, .malformed => .error .malformed
  | .element _, _ => .error (.wrongType ev .element)
  | .fields name e seen, .key k =>
    match Property.ofName? k with
    | none => .error (.unknownProperty k)
    | some p =>
      if seen.contains p then .error (.repeatedProperty p)
      else .ok { r with place := .field name e seen p }
  | .fields name e _, .objectEnd => .ok { sheet := r.sheet.insert name e, place := .elements }
  | .field name e seen p, _ => do
    return { r with place := .fields name (e.set p (← propertyOf ev)) (p :: seen) }
  | .items name e _, .listEnd => .ok { sheet := r.sheet.insert name e, place := .elements }
  | .items name e (p :: ps), _ => do
    return { r with place := .items name (e.set p (← propertyOf ev)) ps }
  | .closed, .finish => .ok { r with place := .done }
  | _, _ => .error .malformed

/-- The sheet that a JSON text describes. -/
def readJson (t : Text) : Except JsonError Sheet := do
  let r ← (events t).foldlM step {}
  return r.sheet

/-! ## Writing -/

/-- The sheet as a JSON text without blanks. -/
def writeJson (s : Sheet) : Text := compact s.toTree

end Inspector.Sheet
