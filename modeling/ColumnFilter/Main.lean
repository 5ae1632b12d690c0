import ColumnFilter.CommandLine.Command

/-!
# The program

Reads the input that the command needs, prints what the command answers and ends
with its status.
-/

open ColumnFilter.CommandLine

/-- The text of an input, if it can be read and is UTF-8. -/
def readSource : Source → IO (Option String)
  | .nothing => pure none
  | .file name => do
    try
      return some (← IO.FS.readFile name)
    catch _ =>
      return none
  | .standardInput => do
    try
      let bytes ← (← IO.getStdin).readBinToEnd
      return String.fromUTF8? bytes
    catch _ =>
      return none

/-- Runs the command of the arguments. -/
def main (args : List String) : IO UInt32 := do
  let outcome ← match read args with
    | none => pure Outcome.misused
    | some command => do pure (command.run (← readSource command.source))
  (← IO.getStdout).putStr outcome.output
  return outcome.status.code.toUInt32
