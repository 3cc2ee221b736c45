import WireView.Report

/-!
# The program

Shows a session for the input that is read from the standard input.
-/

open WireView

partial def readLines (input : IO.FS.Stream) (acc : List String) :
    IO (List String) := do
  let line ← input.getLine
  if line.isEmpty then
    return acc.reverse
  readLines input (line.trimAscii.toString :: acc)

def main (args : List String) : IO UInt32 := do
  match CommandLine.options "wireframe-game" args with
  | .error e => do
      (← IO.getStdout).putStr e.output
      (← IO.getStderr).putStr e.errors
      return e.code.toUInt32
  | .ok o => do
      let lines ← readLines (← IO.getStdin) []
      match Report.session o lines with
      | .ok written => do
          for line in written do
            IO.println line
          return 0
      | .error e => do
          IO.eprintln e.message
          return 1
