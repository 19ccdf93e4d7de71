import Recase.Tree

/-!
# Building file trees

A tree is built by putting nodes at the ends of paths.  The directories on the way are made if they
are missing.
-/

namespace Recase.Tree

/-- Make the directory at the end of a way if there is nothing yet. -/
def makeDirectory (tree : Tree) (start : Location) (steps : List Path.Step) : Tree :=
  match walkThrough tree .look maxLinks start steps with
  | .ok location => if (tree.node? location).isNone then tree.set location .directory else tree
  | .error _ => tree

/-- Make all directories on a way that are missing. -/
def makeDirectories (tree : Tree) (start : Location) (steps : List Path.Step) : Tree :=
  (List.range steps.length).foldl
    (fun tree count => tree.makeDirectory start (steps.take (count + 1))) tree

/-- The location of the entry that a path names: a symbolic link at the end is not followed.  With a
slash at the end a path names directories only. -/
def entryLocation? (tree : Tree) (directory : Location) (path : Text) : Option Location :=
  let start := if Path.isAbsolute path then [] else directory
  let steps := Path.steps path
  let names := Path.withoutSlashes steps
  match names.getLast?, walkThrough tree .look maxLinks start names.dropLast with
  | some (.down name), .ok parent =>
    let location := parent ++ [name]
    match tree.node? parent, tree.node? location with
    | some .directory, some .directory => some location
    | some .directory, _ => if names = steps then some location else none
    | _, _ => none
  | _, _ => none

/-- What can be put into a tree. -/
inductive Item where
  | directory
  | file (bytes : ByteArray)
  | link (target : Text)

/-- Put something at the end of a path.  The content of a file goes to where the path leads, also
behind a symbolic link and into a file that is there; a link takes the place of what is there. -/
def place (tree : Tree) (directory : Location) (path : Text) (item : Item) : Tree :=
  let start := if Path.isAbsolute path then [] else directory
  let steps := Path.steps path
  let tree := tree.makeDirectories start steps.dropLast
  match item with
  | .directory => tree.makeDirectory start steps
  | .file bytes =>
    match walkThrough tree .look maxLinks start steps with
    | .ok location => tree.store location bytes
    | .error _ => tree
  | .link target =>
    match tree.entryLocation? directory path with
    | some location => tree.set location (.link target)
    | none => tree

/-- Remove what a path names, with all that it contains.  A directory that the path leads to without
naming it, such as the one behind a link and a slash, loses what it contains and stays. -/
def erase (tree : Tree) (directory : Location) (path : Text) : Tree :=
  match tree.entryLocation? directory path, tree.locate directory path with
  | some location, _ => tree.remove location
  | none, .ok location =>
    (tree.names location).foldl (fun tree name => tree.remove (location ++ [name])) tree
  | none, .error _ => tree

/-- The regular files below a directory, with their paths from there.  Symbolic links are not
followed. -/
def contents (tree : Tree) (directory : Location) : List (Text × ByteArray) :=
  tree.entries.filterMap fun (location, node) =>
    match node with
    | .file number =>
      if directory.isPrefixOf location then
        some (List.intercalate ['/'] (location.drop directory.length), (tree.file number).bytes)
      else
        none
    | _ => none

/-- The regular files below a directory that differ from those in an older tree, each with its
content, or without one if it is gone. -/
def changes (old new : Tree) (directory : Location) : List (Text × Option ByteArray) :=
  let before := old.contents directory
  let after := new.contents directory
  let written := after.filter fun (path, bytes) =>
    (before.lookup path).map ByteArray.data ≠ some bytes.data
  let gone := before.filter fun (path, _) => (after.lookup path).isNone
  written.map (fun (path, bytes) => (path, some bytes)) ++ gone.map fun (path, _) => (path, none)

end Recase.Tree
