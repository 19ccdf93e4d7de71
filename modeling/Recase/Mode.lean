import Recase.Error

/-!
# Modes

How the names of a text are found, and how the two ways are called.
-/

namespace Recase

/-- How the names of a text are found: as the identifiers among its tokens, or as its longest runs
of word characters. -/
inductive Mode where
  | lexical
  | text
  deriving DecidableEq, Repr

namespace Mode

/-- The name of a mode. -/
def name : Mode → Text
  | .lexical => "lexical".toList
  | .text => "text".toList

/-- The mode with a name. -/
def ofName? (name : Text) : Option Mode :=
  [Mode.lexical, Mode.text].find? (·.name = name)

/-- The mode that an argument names. -/
def ofArgument (argument : Text) : Except Error Mode :=
  match ofName? argument with
  | some mode => .ok mode
  | none =>
    .error (.of (.invalidArgument "mode".toList
      ("Unknown mode '".toList ++ argument ++ "'. Use: lexical, text".toList)))

end Mode

end Recase
