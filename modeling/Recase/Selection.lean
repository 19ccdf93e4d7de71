import Recase.Config
import Recase.World

/-!
# Selecting files

The files to rewrite are the regular files right inside the source directories whose names have one
of the endings.  Directories come in the order in which they are listed, and the files of a
directory in the order of their names.
-/

namespace Recase.Sources

/-- Whether a name has one of the endings.  An empty ending does not count. -/
def matchesName (sources : Sources) (name : Text) : Bool :=
  sources.suffixes.any fun suffix => !suffix.isEmpty && suffix.isSuffixOf name

/-- The files to rewrite in a directory. -/
def selectIn (sources : Sources) (world : World) (directory : Text) : List Text :=
  let isSelected (name : Text) : Bool :=
    sources.matchesName name && world.isFile (Path.join directory name)
  let selected := (world.names directory).filter isSelected
  (Names.ofList selected).toList.map (Path.join directory)

/-- The files to rewrite in a list of directories. -/
def selectAll (sources : Sources) (world : World) : List Text → Except Error (List Text)
  | [] => .ok []
  | directory :: directories =>
    if world.isDirectory directory then
      return sources.selectIn world directory ++ (← selectAll sources world directories)
    else
      .error (.of (.sourceNotFound directory "not a directory".toList))

/-- The files to rewrite.  A tilde in front of a source directory stands for the home directory. -/
def select (sources : Sources) (world : World) : Except Error (List Text) :=
  if sources.paths.isEmpty then
    .error (.of (.missingArguments ["paths".toList]))
  else
    sources.selectAll world (sources.paths.map world.expand)

end Recase.Sources
