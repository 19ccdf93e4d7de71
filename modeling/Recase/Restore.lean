import Recase.World

/-!
# Restoring the working tree

Before a run the files may be brought back to their committed state, so that the run does not build
on the output of another one.  Some paths may be excluded and keep their changes.
-/

namespace Recase

/-- A way to bring the files under a directory back to their committed state, except for some
paths. -/
abbrev Restorer := (root : Text) → (exclude : List Text) → World → Except Error Unit × World

/-- What is asked for when files are to be restored before a run.  The excluded paths keep their
changes. -/
structure RestoreRequest where
  root : Text
  exclude : List Text
  deriving DecidableEq, Repr

namespace Restorer

/-- Leave the files as they are. -/
def none : Restorer :=
  fun _ _ world => (.ok (), world)

/-- A command of the version control in a directory.  Whatever goes wrong is an error of the version
control. -/
def git (root : Text) (arguments : List Text) (step : Text) (world : World) :
    Except Error Unit × World :=
  match world.run root "git".toList arguments step with
  | (.ok _, world) => (.ok (), world)
  | (.error error, world) => (.error (.of (.versionControl error.reason)), world)

/-- Stage the excluded paths, and let the version control bring back everything else from what is
staged.  Nothing is brought back unless the excluded paths are staged. -/
def versionControl : Restorer := fun root exclude world =>
  let staged :=
    if exclude.isEmpty then (.ok (), world)
    else git root ("add".toList :: "--".toList :: exclude) "git add".toList world
  match staged with
  | (.ok _, world) =>
    git root ["restore".toList, "--worktree".toList, "--".toList, ".".toList]
      "git restore".toList world
  | (.error error, world) => (.error error, world)

end Restorer

end Recase
