import Inspector.Command.Arguments
import Inspector.Sheet.File

/-!
# Commands

A command is run with a reader of files, and ends with a status and with what it has written. The
status is 0, or 1 if errors were found and are denied or if there is no sheet, or 2 if the arguments
are wrong; without a sheet, or with wrong arguments, nothing is written.
-/

namespace Inspector

open Text

/-- How a program ends: its status, what it has written, and what it complains about. -/
structure Ending where
  status : Nat := 0
  output : Text := []
  complaint : Text := []
  deriving DecidableEq, Repr

def versionText : Text := "boxwind 0.3.0\n"

def usageText : Text :=
  unlines ["Usage: boxwind translate [--layout S] [--position S] [--appearance S] [--fill S]",
    "                         [--stroke S] [--format text|json|yaml] [--deny-errors]",
    "       boxwind sheet FILE [--format text|json|yaml] [--deny-errors]"]

namespace Command

/-- The file that a command reads. -/
def file? : Command → Option Text
  | .translate _ _ => none
  | .sheet file _ => some file

/-- The output of a command that has run. -/
def ending (s : Settings) (hasErrors : Bool) (output : Text) : Ending :=
  { status := if s.denyErrors && hasErrors then 1 else 0, output }

def run (read? : Text → Option ByteArray) (p : Paint) : Command → Ending
  | .translate e s =>
    let t := e.inspect
    ending s t.hasErrors (t.render s.format p)
  | .sheet file s =>
    match Sheet.ofFile file (read? file) with
    | .error e =>
      { status := 1, complaint := "Error: cannot load " ++ file ++ ": " ++ e.message ++ ['\n'] }
    | .ok loaded =>
      let results := loaded.inspectAll
      ending s (results.any (·.2.hasErrors)) (renderNamed s.format p results)

end Command

namespace Request

/-- The file that is needed to answer a request. -/
def file? : Request → Option Text
  | .run c => c.file?
  | _ => none

def answer (read? : Text → Option ByteArray) (p : Paint) : Request → Ending
  | .version => { output := versionText }
  | .help => { output := usageText }
  | .run c => c.run read? p

end Request

/-- How the program ends when it is called with these arguments. -/
def Ending.ofArguments (read? : Text → Option ByteArray) (p : Paint) (ts : List Text) : Ending :=
  match Request.ofArguments? ts with
  | none => { status := 2, complaint := usageText }
  | some request => request.answer read? p

end Inspector
