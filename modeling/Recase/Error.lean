import Recase.Json

/-!
# Errors

An error is its cause, together with advice that was added on the way.  Everything that is shown of
an error (its code, its message, its details, its hints and the exit status) follows from the
cause.  The program itself has causes of ten kinds; a restorer may come up with another one.
-/

namespace Recase

/-- The kinds of failures. -/
inductive Error.Kind where
  | malformedConfig
  | invalidSetting
  | missingArguments
  | invalidArgument
  | sourceNotFound
  | placeholderCollision
  | versionControl
  | system
  | json
  | unexpected
  deriving DecidableEq, Repr

namespace Error.Kind

/-- The code that names a kind. -/
def code : Kind → Text
  | malformedConfig => "config.invalid_json".toList
  | invalidSetting => "config.invalid_value".toList
  | missingArguments => "validation.missing_argument".toList
  | invalidArgument => "validation.invalid_argument".toList
  | sourceNotFound => "source.path_not_found".toList
  | placeholderCollision => "rewrite.placeholder_collision".toList
  | versionControl => "git.command_failed".toList
  | system => "internal.io_error".toList
  | json => "internal.json_error".toList
  | unexpected => "internal.unexpected".toList

/-- The exit status of a command that ends with an error of a kind. -/
def exitStatus : Kind → Nat
  | malformedConfig | invalidSetting | missingArguments | invalidArgument
  | placeholderCollision => 2
  | sourceNotFound => 4
  | versionControl => 20
  | system | json | unexpected => 1

end Error.Kind

/-- Why an operation failed.  A custom cause is of any kind and has a message and details of its
own. -/
inductive Error.Cause where
  | malformedConfig (path : Text)
  | invalidSetting (key : Text) (value : Option Text) (problem : Text)
  | missingArguments (names : List Text)
  | invalidArgument (field : Text) (problem : Text)
  | sourceNotFound (path : Text) (reason : Text)
  | placeholderCollision (placeholder : Char) (file : Option Text)
  | versionControl (reason : Text)
  | system (reason : Text) (context : Option Text)
  | json (reason : Text) (context : Option Text)
  | unexpected (reason : Text)
  | custom (kind : Error.Kind) (message : Text) (details : Json)

/-- A failure, with hints beyond those that its cause gives. -/
structure Error where
  cause : Error.Cause
  advice : List Text := []

namespace Error

namespace Cause

/-- The kind of a cause. -/
def kind : Cause → Kind
  | malformedConfig .. => .malformedConfig
  | invalidSetting .. => .invalidSetting
  | missingArguments .. => .missingArguments
  | invalidArgument .. => .invalidArgument
  | sourceNotFound .. => .sourceNotFound
  | placeholderCollision .. => .placeholderCollision
  | versionControl .. => .versionControl
  | system .. => .system
  | json .. => .json
  | unexpected .. => .unexpected
  | custom kind .. => kind

/-- The code that names the kind of a cause. -/
def code (cause : Cause) : Text :=
  cause.kind.code

/-- The sentence that tells a reader what happened. -/
def message : Cause → Text
  | malformedConfig .. => "Invalid JSON in configuration".toList
  | invalidSetting .. => "Invalid configuration value".toList
  | missingArguments .. => "Missing required argument".toList
  | invalidArgument .. => "Invalid argument".toList
  | sourceNotFound path _ =>
    "Source directory '".toList ++ path ++ "' is missing or unreadable".toList
  | placeholderCollision placeholder _ =>
    "Input already contains the separator placeholder '".toList ++ [placeholder, '\'']
  | versionControl reason => reason
  | system .. => "IO error".toList
  | json .. => "JSON error".toList
  | unexpected .. => "Unexpected error".toList
  | custom _ message _ => message

/-- What went wrong in detail, for the causes that hold such a text.  The reader of configuration
files does not say where a document is at fault; a fixed text stands for that. -/
def reason? : Cause → Option Text
  | malformedConfig .. => some "<json error>".toList
  | sourceNotFound _ reason => some reason
  | system reason _ => some reason
  | json reason _ => some reason
  | unexpected reason => some reason
  | custom _ _ details => (details.member? "error".toList).bind Json.text?
  | invalidSetting .. | missingArguments .. | invalidArgument .. | placeholderCollision ..
  | versionControl .. => none

/-- The parts of a cause that is not custom, apart from its reason. -/
def particulars : Cause → List (Text × Json)
  | malformedConfig path => [("path".toList, .text path)]
  | invalidSetting key value problem =>
    ("key".toList, .text key) :: Json.optional "value".toList (value.map Json.text) ++
      [("problem".toList, .text problem)]
  | missingArguments names => [("args".toList, .texts names)]
  | invalidArgument field problem =>
    [("field".toList, .text field), ("problem".toList, .text problem)]
  | sourceNotFound path _ => [("path".toList, .text path)]
  | placeholderCollision placeholder file =>
    ("placeholder".toList, .text [placeholder]) ::
      Json.optional "file".toList (file.map Json.text)
  | system _ context | json _ context =>
    Json.optional "context".toList (context.map Json.text)
  | versionControl _ | unexpected _ | custom .. => []

/-- The details of an error. -/
def details : Cause → Json
  | custom _ _ details => details
  | cause =>
    .record (cause.particulars ++ Json.optional "error".toList (cause.reason?.map Json.text))

/-- Whether a cause is one of those that the program itself has. -/
def IsBuiltIn : Cause → Prop
  | custom .. => False
  | _ => True

theorem details_of_isBuiltIn {cause : Cause} (builtIn : cause.IsBuiltIn) :
    cause.details =
      .record (cause.particulars ++
        Json.optional "error".toList (cause.reason?.map Json.text)) := by
  cases cause with
  | custom => exact builtIn.elim
  | _ => rfl

/-- What a reader may do about it. -/
def hints : Cause → List Text
  | sourceNotFound .. =>
    ["Pass existing directories as PATHS or set sourcePaths in the config file".toList]
  | placeholderCollision placeholder _ =>
    ["Choose a different placeholder glyph in the config file".toList,
      "Pass --keep-going to skip such files (a '".toList ++
        placeholder :: "' in a comment is enough)".toList]
  | _ => []

/-- The exit status of a command that ends with such an error. -/
def exitStatus (cause : Cause) : Nat :=
  cause.kind.exitStatus

end Cause

/-- The error without further advice. -/
def of (cause : Cause) : Error where
  cause := cause

/-- The error with one more piece of advice. -/
def advise (error : Error) (hint : Text) : Error :=
  { error with advice := error.advice ++ [hint] }

/-- All hints, those of the cause first. -/
def hints (error : Error) : List Text :=
  error.cause.hints ++ error.advice

/-- The reason that an error gives, and its message if it gives none. -/
def reason (error : Error) : Text :=
  error.cause.reason?.getD error.cause.message

end Error

end Recase
