import ClosedForm.CommandLine

/-!
# The program

Connects the command line to the standard streams. The input is read only when it is needed.
-/

open ClosedForm.CommandLine in
def main (arguments : List String) : IO UInt32 := do
  let request := Request.ofArguments arguments
  let stdin ← IO.getStdin
  let input ← if request.readsInput then stdin.readBinToEnd else pure .empty
  let outcome := request.run input
  (← IO.getStdout).putStr outcome.stdout
  (← IO.getStderr).putStr outcome.stderr
  return outcome.code.toUInt32
