import LastLayer.CommandLine

/-!
# The program

The outer layer: it reads files, prints the outcome of a command and ends with its exit code.
-/

namespace LastLayer

/-- The contents of a file, if it can be read as text. -/
def readTextFile (path : String) : IO (Option String) := do
  try
    return some (← IO.FS.readFile path)
  catch _ =>
    return none

end LastLayer

/-- Run the command that the arguments ask for. -/
def main (arguments : List String) : IO UInt32 := do
  let outcome ← LastLayer.Command.runArguments LastLayer.readTextFile arguments
  (← IO.getStdout).putStr outcome.output
  (← IO.getStderr).putStr outcome.messages
  return outcome.code.toUInt32
