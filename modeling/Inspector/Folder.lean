import Inspector.Text.Basic

/-!
# Folders

A folder of files without folders inside it. A path leads to a file if it is the file's name, steps
that stay in the folder aside.
-/

namespace Inspector

/-- Files by their names. -/
abbrev Folder := List (Text × ByteArray)

namespace Folder

/-- The steps of a path; empty ones and those that stay do not count. -/
def steps (path : Text) : List Text :=
  (path.splitOn '/').filter fun step => !step.isEmpty && step ≠ "."

/-- What the file at a path holds. -/
def read? (f : Folder) (path : Text) : Option ByteArray :=
  if path.head? = some '/' ∨ path.getLast? = some '/' then none
  else
    match steps path with
    | [name] => if (path.splitOn '/').getLast? = some name then f.lookup name else none
    | _ => none

end Folder

end Inspector
