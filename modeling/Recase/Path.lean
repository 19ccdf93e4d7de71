import Recase.Text

/-!
# Paths

A path is a text in which slashes separate steps.  The functions here look at the text alone; which
file a path leads to is a matter of the tree that it is followed in.
-/

namespace Recase.Path

/-- Whether a path starts from the root. -/
def isAbsolute (path : Text) : Bool :=
  path.head? == some '/'

/-- The path that leads to `path` from `base`.  An absolute path stays as it is. -/
def join (base path : Text) : Text :=
  if isAbsolute path then path
  else if base.isEmpty || base.getLast? == some '/' then base ++ path
  else base ++ '/' :: path

/-- Drop slashes and steps to the same place from the end of a path that is written backwards.  The
slash of the root and a first step to the same place stay. -/
def trimBackwards : Text → Text
  | [] => []
  | ['/'] => ['/']
  | '/' :: rest => trimBackwards rest
  | '.' :: '/' :: rest => trimBackwards ('/' :: rest)
  | path => path

/-- The path without its last step.  The root has no last step, nor has the empty path. -/
def parent? (path : Text) : Option Text :=
  match trimBackwards path.reverse with
  | [] | ['/'] => none
  | trimmed => some (trimBackwards (trimmed.dropWhile (· != '/'))).reverse

/-- A path in which a leading tilde, alone or in front of a slash, stands for the home directory.
Without a home directory the tilde is a name like any other. -/
def expand (home : Option Text) (path : Text) : Text :=
  match home, path with
  | some home, ['~'] => home
  | some home, '~' :: '/' :: rest => home ++ '/' :: rest
  | _, path => path

/-- One step of a path.  An empty name, as there is one behind a slash at the end of a path, stays
in the directory, and so does a dot. -/
inductive Step where
  | slash
  | stay
  | up
  | down (name : Text)
  deriving DecidableEq, Repr

/-- The step that lies between two slashes. -/
def Step.ofText : Text → Step
  | [] => .slash
  | ['.'] => .stay
  | ['.', '.'] => .up
  | name => .down name

/-- The steps of a path.  A slash at the end makes for a last step that stays, which only a
directory allows. -/
def steps (path : Text) : List Step :=
  (Text.cutAt ['/'] path).map Step.ofText

/-- Whether slashes are all that is left of a path, and there is at least one. -/
def onlySlashes (steps : List Step) : Bool :=
  !steps.isEmpty && steps.all (· = .slash)

/-- The steps without the slashes at the end. -/
def withoutSlashes (steps : List Step) : List Step :=
  (steps.reverse.dropWhile (· = .slash)).reverse

end Recase.Path
