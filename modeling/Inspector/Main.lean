import Inspector.Command

/-!
# The program

Reads the file that the arguments name, if they name one, and writes what comes of them. Only on a
terminal is anything coloured.
-/

open Inspector

/-- What a file holds, if it can be read. -/
def contentOf (path : Text) : IO (Option ByteArray) := do
  try
    return some (← IO.FS.readBinFile (String.ofList path))
  catch _ =>
    return none

def main (args : List String) : IO UInt32 := do
  let ts := args.map String.toList
  let content ←
    match (Request.ofArguments? ts).bind Request.file? with
    | some path => contentOf path
    | none => pure none
  let output ← IO.getStdout
  let paint := if ← output.isTty then Paint.colored else Paint.plain
  let ending := Ending.ofArguments (fun _ => content) paint ts
  output.putStr (String.ofList ending.output)
  output.flush
  (← IO.getStderr).putStr (String.ofList ending.complaint)
  return ending.status.toUInt32
