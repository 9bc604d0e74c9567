import Inspector.Json.Quoted
import Inspector.Tree

/-!
# JSON text of a tree

The compact form has no blanks at all. The wide form puts every item and field on a line of its own,
two spaces further in than what it belongs to; what is empty stays on one line.
-/

namespace Inspector.Json

open Text

def boolText (b : Bool) : Text := if b then "true" else "false"

/-! ## Compact -/

mutual

def compact : Tree → Text
  | .bool b => boolText b
  | .text t => quoted t
  | .texts ts => "[" ++ joined "," (ts.map quoted) ++ "]"
  | .object fields => "\x7b" ++ joined "," (compactFields fields) ++ "\x7d"

def compactFields : List (Text × Tree) → List Text
  | [] => []
  | (name, v) :: fs => (quoted name ++ ":" ++ compact v) :: compactFields fs

end

/-! ## Wide -/

def indent (depth : Nat) : Text := List.replicate (2 * depth) ' '

/-- Items on lines of their own between two brackets. -/
def enclosed (left right : Text) (depth : Nat) (items : List Text) : Text :=
  match items with
  | [] => left ++ right
  | _ =>
    left ++ "\n" ++ joined ",\n" (items.map (indent (depth + 1) ++ ·)) ++ "\n" ++ indent depth ++
      right

mutual

def wide (depth : Nat) : Tree → Text
  | .bool b => boolText b
  | .text t => quoted t
  | .texts ts => enclosed "[" "]" depth (ts.map quoted)
  | .object fields => enclosed "\x7b" "\x7d" depth (wideFields (depth + 1) fields)

def wideFields (depth : Nat) : List (Text × Tree) → List Text
  | [] => []
  | (name, v) :: fs => (quoted name ++ ": " ++ wide depth v) :: wideFields depth fs

end

/-- The wide text of a tree, with the end of its last line. -/
def document (t : Tree) : Text := wide 0 t ++ "\n"

end Inspector.Json
