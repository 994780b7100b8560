import FilterLang.CommandLine.Run

/-!
# The program

The input stream is read only when the expression is not an argument, and not
from a terminal.
-/

namespace FilterLang
namespace CommandLine

/-- The input stream of an invocation that needs one. -/
def readInput (invocation : Invocation) : IO (Option ByteArray) := do
  let stream ← IO.getStdin
  if invocation.expression.isSome || (← stream.isTty) then
    return none
  else
    return some (← stream.readBinToEnd)

/-- Print a report and give its exit code. -/
def writeReport (report : Report) : IO UInt32 := do
  IO.print report.output
  if let some problem := report.problem then
    IO.eprintln problem
  return report.code.toUInt32

end CommandLine
end FilterLang

open FilterLang.CommandLine in
/-- Run the program on the arguments, environment and input of its process. -/
def main (arguments : List String) : IO UInt32 := do
  match readArguments (← IO.getEnv maxDepthVariable) arguments with
  | .error halt => writeReport (.halted halt)
  | .ok invocation => writeReport (invocation.run (← readInput invocation))
