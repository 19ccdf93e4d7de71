import Recase.CommandLine
import Recase.Json.Reader
import Recase.Tree.Document

/-!
# The program

The files to work on come in as a document on the standard input, which may be empty.  What has
changed goes out as a document on the standard error.  The standard output is left to the command.
No other program can be started.
-/

namespace Recase

/-- What a command line that was refused is answered with. -/
def usage : String :=
  "usage: varcase rename|files|explain [OPTIONS] [OPERANDS]"

/-- Execute a command line on the files that a document describes. -/
def runOnDocument (arguments : List String) (document : String) :
    Option (CommandLine.Response × Json) := do
  let text := Text.trim Character.isBlank document.toList
  let tree ← if text.isEmpty then some .empty else Json.read? text >>= Tree.empty.placeAll? []
  let (response, world) := CommandLine.run (arguments.map String.toList) { tree }
  some (response, tree.changesToJson world.tree [])

end Recase

/-- Execute the command line. -/
def main (arguments : List String) : IO UInt32 := do
  match Recase.runOnDocument arguments (← (← IO.getStdin).readToEnd) with
  | none =>
    IO.eprintln "the standard input describes no files"
    return 1
  | some (response, changes) =>
    match response with
    | .refused .version => pure ()
    | .refused _ => IO.eprintln Recase.usage
    | .ended _ => IO.eprintln (String.ofList changes.print)
    IO.print (String.ofList response.output)
    return response.exitByte.toUInt32
