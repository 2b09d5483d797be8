/-
  The program: a command line run on real files.
-/
import ProductFormula.CommandLine.Command

open ProductFormula.CommandLine

/-- The content of a file in UTF-8, if it can be read. -/
def readFile? (path : String) : IO (Option String) := do
  try
    let content ← IO.FS.readFile path
    return some content
  catch _ =>
    return none

/-- All of the standard input. -/
def readStandardInput : IO String := do
  let input ← IO.getStdin
  input.readToEnd

def main (arguments : List String) : IO UInt32 := do
  let outcome ← runArguments ⟨readFile?, readStandardInput⟩ arguments
  match outcome with
  | .refused e =>
    IO.eprintln e.message
    return 2
  | .failed failure =>
    IO.eprintln failure.message
    return 1
  | .printed printed =>
    IO.print printed.text
    return printed.status.toUInt32
