import Recase.Character.Word
import Recase.Error
import Recase.Text.Encoding
import Recase.Tree

/-!
# The surroundings of a run

What a run finds outside of itself: the files, the directory it runs in, the home directory, and
the programs that can be started.  An operation takes the surroundings as they are and gives back
what it found, along with the surroundings as it leaves them, also when it fails.
-/

namespace Recase

/-- A program to start, with its arguments and the directory to run it in. -/
structure Invocation where
  directory : Location
  program : Text
  arguments : List Text
  deriving DecidableEq, Repr

/-- What a program that has ended leaves behind.  There is no exit status if a signal ended it. -/
structure Finished where
  status : Option Nat
  output : ByteArray
  errorOutput : ByteArray

namespace Finished

/-- Bytes as a text without white space at its ends. -/
def trimmed (bytes : ByteArray) : Text :=
  Text.trim Character.isBlank (Text.decodeLossy bytes)

/-- What a program reports. -/
def report (finished : Finished) : Text :=
  trimmed finished.output

/-- What a program has to say about its failure: what it wrote to its standard error, or to its
standard output if that is blank. -/
def complaint (finished : Finished) : Text :=
  match trimmed finished.errorOutput with
  | [] => finished.report
  | text => text

end Finished

/-- The programs that can be started.  A program may change the files. -/
abbrev Programs := Invocation → Tree → Except FileError (Finished × Tree)

/-- The surroundings of a run: the files, the current and the home directory, the programs that can
be started, and those that were started, in order. -/
structure World where
  tree : Tree
  here : Location := []
  home : Option Text := none
  programs : Programs := fun _ _ => .error .notFound
  started : List Invocation := []

namespace World

/-- The error that a file or a program could not be used. -/
def failure (error : FileError) (context : Text) : Error :=
  .of (.system error.message (some context))

/-- The node that a path leads to. -/
def nodeAt (world : World) (path : Text) : Except FileError Node :=
  world.tree.nodeAt world.here path

/-- Whether a path leads to a directory. -/
def isDirectory (world : World) (path : Text) : Bool :=
  match world.nodeAt path with
  | .ok .directory => true
  | _ => false

/-- Whether a path leads to a regular file. -/
def isFile (world : World) (path : Text) : Bool :=
  match world.nodeAt path with
  | .ok (.file _) => true
  | _ => false

/-- The names of the entries of the directory that a path leads to. -/
def names (world : World) (path : Text) : List Text :=
  match world.tree.locate world.here path with
  | .ok location => world.tree.names location
  | .error _ => []

/-- A path with the home directory in place of a leading tilde. -/
def expand (world : World) (path : Text) : Text :=
  Path.expand world.home path

/-! ## Files -/

/-- The text of the file that a path leads to. -/
def content (world : World) (path : Text) : Except FileError Text := do
  match ← world.nodeAt path with
  | .file number =>
    match Text.decode? (world.tree.file number).bytes with
    | some text => .ok text
    | none => .error .notText
  | .device => .ok []
  | .directory => .error .isADirectory
  | .link _ => .error .notFound

/-- Read a file.  The context tells what for. -/
def read (world : World) (path context : Text) : Except Error Text :=
  (world.content path).mapError (failure · context)

/-- The surroundings in which a file has a text, whether it was there before or not. -/
def store (world : World) (path content : Text) : Except FileError World := do
  let location ← world.tree.locateForWriting world.here path
  .ok { world with tree := world.tree.store location (Text.encode content) }

/-- Write a file.  The context tells what for. -/
def write (path content context : Text) (world : World) : Except Error Unit × World :=
  match world.store path content with
  | .ok world => (.ok (), world)
  | .error error => (.error (failure error context), world)

/-! ## Programs -/

/-- The directory to start a program in. -/
def locateDirectory (world : World) (path : Text) : Except FileError Location := do
  let location ← world.tree.locate world.here path
  match world.tree.node? location with
  | some .directory => .ok location
  | some _ => .error .notADirectory
  | none => .error .notFound

/-- Start a program in a directory and wait for its end. -/
def start (directory program : Text) (arguments : List Text) (world : World) :
    Except FileError Finished × World :=
  if (directory :: program :: arguments).any (·.contains '\x00') then
    (.error .zeroInCommand, world)
  else
    match world.locateDirectory directory with
    | .error error => (.error error, world)
    | .ok location =>
      let invocation : Invocation := { directory := location, program, arguments }
      match world.programs invocation world.tree with
      | .error error => (.error error, world)
      | .ok (finished, tree) =>
        (.ok finished, { world with tree, started := world.started ++ [invocation] })

/-- Run a program in a directory.  The result is what it wrote to its standard output.  The context
names the step for the error that it could not be started or did not succeed. -/
def run (directory program : Text) (arguments : List Text) (context : Text) (world : World) :
    Except Error Text × World :=
  match world.start directory program arguments with
  | (.error error, world) =>
    (.error (.of (.system ("Failed to run ".toList ++ program ++ ": ".toList ++ error.message)
      (some context))), world)
  | (.ok finished, world) =>
    if finished.status = some 0 then
      (.ok finished.report, world)
    else
      let status := (finished.status.map Text.ofNat).getD "signal".toList
      (.error (.of (.system (context ++ " (exit ".toList ++ status ++ "): ".toList ++
        finished.complaint) (some context))), world)

end World

end Recase
