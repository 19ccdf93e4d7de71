import Recase.Path

/-!
# File trees

A tree maps locations to nodes.  A location is the list of names on the way from the root; the root
itself is always a directory.  Files have numbers, and a node refers to its file by the number: so
several locations may share one file, and a write at one of them is a write at all.

Paths are followed step by step, through symbolic links as well.
-/

namespace Recase

/-- The place of a node: the names that lead to it from the root. -/
abbrev Location := List Text

/-- What is at a location.  Regular files have numbers.  Nothing comes out of a pipe or a device,
and what goes into it is gone. -/
inductive Node where
  | directory
  | file (number : Nat)
  | link (target : Text)
  | device
  deriving DecidableEq, Repr

/-- A regular file.  Who may read, write and run it takes three bits each. -/
structure File where
  bytes : ByteArray := .empty
  permissions : Nat := 0o644

/-- Why a file or a program cannot be used. -/
inductive FileError where
  | notFound
  | badFormat
  | permissionDenied
  | notADirectory
  | isADirectory
  | tooManyLinks
  | nameTooLong
  | zeroInPath
  | zeroInCommand
  | notText
  deriving DecidableEq, Repr

/-- The sentence for an error. -/
def FileError.message : FileError → Text
  | notFound => "No such file or directory (os error 2)".toList
  | badFormat => "Exec format error (os error 8)".toList
  | permissionDenied => "Permission denied (os error 13)".toList
  | notADirectory => "Not a directory (os error 20)".toList
  | isADirectory => "Is a directory (os error 21)".toList
  | tooManyLinks => "Too many levels of symbolic links (os error 40)".toList
  | nameTooLong => "File name too long (os error 36)".toList
  | zeroInPath => "file name contained an unexpected NUL byte".toList
  | zeroInCommand => "nul byte found in provided data".toList
  | notText => "stream did not contain valid UTF-8".toList

/-- A tree of files, directories and symbolic links, with one node at a location. -/
structure Tree where
  entries : List (Location × Node)
  distinct : (entries.map Prod.fst).Nodup := by exact .nil
  files : Array File := #[]

namespace Tree

/-- The tree that consists of the root. -/
def empty : Tree where
  entries := []

/-- The first node of a list with a location. -/
def find (location : Location) : List (Location × Node) → Option Node
  | [] => none
  | entry :: entries => if location = entry.1 then some entry.2 else find location entries

/-- The node at a location. -/
def node? (tree : Tree) (location : Location) : Option Node :=
  if location = [] then some .directory else find location tree.entries

/-- The tree with another node at a location. -/
def set (tree : Tree) (location : Location) (node : Node) : Tree where
  files := tree.files
  entries := (location, node) :: tree.entries.filter fun entry => entry.1 ≠ location
  distinct := by
    rw [List.map_cons, List.nodup_cons]
    constructor
    · simp
    · exact tree.distinct.sublist ((List.filter_sublist).map Prod.fst)

/-- The tree without a location and all that lies below it. -/
def remove (tree : Tree) (location : Location) : Tree where
  files := tree.files
  entries := tree.entries.filter fun entry => !location.isPrefixOf entry.1
  distinct := tree.distinct.sublist ((List.filter_sublist).map Prod.fst)

theorem find_filter_ne {location other : Location} (different : location ≠ other)
    (entries : List (Location × Node)) :
    find location (entries.filter fun entry => entry.1 ≠ other) = find location entries := by
  induction entries with
  | nil => rfl
  | cons entry entries ih =>
      by_cases same : entry.1 = other
      · have elsewhere : location ≠ entry.1 := same ▸ different
        rw [List.filter_cons_of_neg (by simpa using same), ih, find, if_neg elsewhere]
      · rw [List.filter_cons_of_pos (by simpa using same), find, find, ih]

@[simp] theorem node?_root (tree : Tree) : tree.node? [] = some .directory := rfl

/-- A change of one node leaves the others alone. -/
theorem node?_set (tree : Tree) (location : Location) (node : Node) (query : Location) :
    (tree.set location node).node? query =
      if query = [] then some .directory
      else if query = location then some node
      else tree.node? query := by
  by_cases root : query = []
  · simp [root]
  · by_cases same : query = location
    · simp [node?, set, find, same]
    · simp only [node?, set, find, if_neg root, if_neg same]
      exact find_filter_ne same tree.entries

/-! ## Files -/

/-- The file with a number.  An unused number stands for an empty file. -/
def file (tree : Tree) (number : Nat) : File :=
  tree.files.getD number {}

/-- The tree with a change to the file with a number. -/
def updateFile (tree : Tree) (number : Nat) (change : File → File) : Tree :=
  { tree with files := tree.files.modify number change }

/-- The tree with a new file at a location.  The file has a number of its own. -/
def addFile (tree : Tree) (location : Location) (file : File) : Tree :=
  { tree.set location (.file tree.files.size) with files := tree.files.push file }

/-- The tree with some bytes at a location.  A file that is there already keeps its number. -/
def store (tree : Tree) (location : Location) (bytes : ByteArray) : Tree :=
  match tree.node? location with
  | some (.file number) => tree.updateFile number ({ · with bytes })
  | some .device => tree
  | _ => tree.addFile location { bytes }

/-- A change to a file leaves the nodes alone. -/
@[simp] theorem node?_updateFile (tree : Tree) (number : Nat) (change : File → File)
    (query : Location) : (tree.updateFile number change).node? query = tree.node? query := rfl

/-- A new file is the only change to the nodes. -/
theorem node?_addFile (tree : Tree) (location : Location) (file : File) (query : Location) :
    (tree.addFile location file).node? query =
      if query = [] then some .directory
      else if query = location then some (.file tree.files.size)
      else tree.node? query :=
  node?_set tree location (.file tree.files.size) query

/-- A new file is found under its number. -/
@[simp] theorem file_addFile (tree : Tree) (location : Location) (file : File) :
    (tree.addFile location file).file tree.files.size = file := by
  simp [addFile, Tree.file]

/-- The names of the entries of a directory, in no particular order. -/
def names (tree : Tree) (directory : Location) : List Text :=
  tree.entries.filterMap fun entry =>
    if entry.1.dropLast = directory then entry.1.getLast? else none

/-! ## Following paths -/

/-- The greatest number of bytes in a name. -/
def maxNameBytes : Nat := 255

/-- The greatest number of bytes in a path. -/
def maxPathBytes : Nat := 4095

/-- What a path is followed for.  A file that is to be written is made if there is none. -/
inductive Purpose where
  | look
  | write
  deriving DecidableEq, Repr

/-- Follow steps from a directory.  When a symbolic link is met, `follow` goes on from the place
where the link is read.  The end of the way may be a place where nothing is yet.  No file is written
at a name with a slash behind it, whatever is there: such a name is for directories. -/
def walk (tree : Tree) (purpose : Purpose)
    (follow : Location → List Path.Step → Except FileError Location) :
    Location → List Path.Step → Except FileError Location
  | directory, [] => .ok directory
  | directory, .slash :: steps | directory, .stay :: steps =>
    walk tree purpose follow directory steps
  | directory, .up :: steps => walk tree purpose follow directory.dropLast steps
  | directory, .down name :: steps =>
    let location := directory ++ [name]
    if purpose = .write ∧ Path.onlySlashes steps then .error .isADirectory
    else if maxNameBytes < Text.byteCount name then .error .nameTooLong
    else
      match tree.node? location with
      | some .directory => walk tree purpose follow location steps
      | some (.file _) | some .device =>
        if steps = [] then .ok location else .error .notADirectory
      | some (.link target) =>
        follow (if Path.isAbsolute target then [] else directory) (Path.steps target ++ steps)
      | none => if steps = [] then .ok location else .error .notFound

/-- Follow steps from a directory, through a limited number of symbolic links. -/
def walkThrough (tree : Tree) (purpose : Purpose) :
    Nat → Location → List Path.Step → Except FileError Location
  | 0 => walk tree purpose fun _ _ => .error .tooManyLinks
  | links + 1 => walk tree purpose (walkThrough tree purpose links)

/-- How many symbolic links one path may lead through. -/
def maxLinks : Nat := 40

/-- The location that a path leads to from a directory, or from the root if the path says so. -/
def follow (tree : Tree) (purpose : Purpose) (directory : Location) (path : Text) :
    Except FileError Location :=
  if path.contains '\x00' then .error .zeroInPath
  else if path = [] then .error .notFound
  else if maxPathBytes < Text.byteCount path then .error .nameTooLong
  else
    walkThrough tree purpose maxLinks (if Path.isAbsolute path then [] else directory)
      (Path.steps path)

/-- The location that a path leads to from a directory. -/
def locate (tree : Tree) (directory : Location) (path : Text) : Except FileError Location :=
  tree.follow .look directory path

/-- The node that a path leads to from a directory. -/
def nodeAt (tree : Tree) (directory : Location) (path : Text) : Except FileError Node := do
  match tree.node? (← tree.locate directory path) with
  | some node => .ok node
  | none => .error .notFound

/-- The location at which a file with the path would be written. -/
def locateForWriting (tree : Tree) (directory : Location) (path : Text) :
    Except FileError Location := do
  let location ← tree.follow .write directory path
  match tree.node? location with
  | some .directory => .error .isADirectory
  | _ => .ok location

end Tree

end Recase
