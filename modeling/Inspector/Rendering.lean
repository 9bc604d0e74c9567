import Inspector.ByName
import Inspector.Element
import Inspector.Json.Printer
import Inspector.Yaml.Printer

/-!
# Rendering

An inspection is shown as text, a line for the class attribute and one for each problem, or as a JSON
or YAML document with the fields `classes`, `isFixed`, `errors`, `warnings`. The inspections of a
sheet are shown under their names: as text in the order in which they are given, in a document in the
order of the names, each name once.

    t.render .text p = unlines (t.lines p)
-/

namespace Inspector

open Text

/-- The forms of output. -/
inductive Format where
  | text
  | json
  | yaml
  deriving DecidableEq, Repr

namespace Format

def name : Format → Text
  | .text => "text"
  | .json => "json"
  | .yaml => "yaml"

def ofName? (t : Text) : Option Format := [text, json, yaml].find? (·.name == t)

end Format

/-! ## Colour -/

/-- How the words are set off that tell what a line is. -/
structure Paint where
  error : Text → Text
  warning : Text → Text
  fixed : Text → Text
  name : Text → Text

namespace Paint

/-- Nothing is set off. -/
def plain : Paint := ⟨id, id, id, id⟩

/-- A text between the escape sequences that turn attributes on and all of them off. -/
def ansi (attributes : List Text) (t : Text) : Text :=
  attributes.flatMap (fun a => ['\x1b', '['] ++ a ++ ['m']) ++ t ++ ['\x1b', '[', '0', 'm']

/-- Errors red and bold, warnings yellow, fixed elements cyan, names bold. -/
def colored : Paint := ⟨ansi ["31", "1"], ansi ["33"], ansi ["36"], ansi ["1"]⟩

end Paint

/-! ## Text -/

/-- The text of lines, each with its end. -/
def unlines (lines : List Text) : Text := lines.flatMap (· ++ ['\n'])

namespace Inspection

/-- The lines of the text form. -/
def lines (p : Paint) (t : Inspection) : List Text :=
  [t.classAttribute] ++
  (if t.isFixed then [p.fixed "fixed: true"] else []) ++
  t.errors.map (fun m => p.error "error:" ++ ' ' :: m) ++
  t.warnings.map (fun m => p.warning "warning:" ++ ' ' :: m)

/-! ## Documents -/

def toTree (t : Inspection) : Tree :=
  .object [("classes", .texts t.classes), ("isFixed", .bool t.isFixed),
    ("errors", .texts t.errors), ("warnings", .texts t.warnings)]

end Inspection

/-- A single inspection. -/
def Inspection.render (f : Format) (p : Paint) (t : Inspection) : Text :=
  match f with
  | .text => unlines (t.lines p)
  | .json => Json.document t.toTree
  | .yaml => Yaml.document t.toTree

/-- The lines of the text form of named inspections: each name before its lines, two columns in. -/
def namedLines (p : Paint) (results : List (Text × Inspection)) : List Text :=
  results.flatMap fun (name, t) => p.name (name ++ ":") :: (t.lines p).map ("  " ++ ·)

/-- Named inspections as one tree, keyed by name. -/
def namedTree (results : List (Text × Inspection)) : Tree :=
  .object ((ByName.collect results).map fun (name, t) => (name, t.toTree))

/-- Named inspections. -/
def renderNamed (f : Format) (p : Paint) (results : List (Text × Inspection)) : Text :=
  match f with
  | .text => unlines (namedLines p results)
  | .json => Json.document (namedTree results)
  | .yaml => Yaml.document (namedTree results)

end Inspector
