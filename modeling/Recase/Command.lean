import Recase.Config.File
import Recase.Envelope
import Recase.Run

/-!
# Commands

There are three commands.  One renames, one lists the files that would be taken, and one explains
what would become of identifiers.  Each of them begins by making up the configuration from a file
and from what its arguments say.
-/

namespace Recase

/-- The arguments from which a configuration is made up.  The names under `ignore` are added to the
configured ones, and `markOnly` leaves all but leading underscores alone. -/
structure ConfigArguments where
  file : Option Text := none
  suffixes : List Text := []
  ignore : List Text := []
  mode : Option Text := none
  markOnly : Bool := false
  deriving DecidableEq, Repr

namespace ConfigArguments

/-- The configuration that the arguments start from. -/
def base (arguments : ConfigArguments) (world : World) : Except Error Config :=
  match arguments.file with
  | some file => Config.load world (world.expand file)
  | none => .ok Config.default

/-- The configuration that the arguments make up.  Source directories replace the configured ones
if there are any. -/
def resolve (arguments : ConfigArguments) (paths : List Text) (world : World) :
    Except Error Config := do
  let base ← arguments.base world
  let mode ← match arguments.mode with
    | some name => Mode.ofArgument name
    | none => .ok base.mode
  let config : Config :=
    { base with
      paths := if paths.isEmpty then base.paths else paths
      suffixes := if arguments.suffixes.isEmpty then base.suffixes else arguments.suffixes
      ignored := base.ignored.extend arguments.ignore
      mode
      camelCase := base.camelCase && !arguments.markOnly }
  config.validate
  pure config

end ConfigArguments

/-- A command with its arguments. -/
inductive Command where
  | rename (paths : List Text) (arguments : ConfigArguments) (options : RunOptions)
  | files (paths : List Text) (arguments : ConfigArguments)
  | explain (identifiers : List Text) (arguments : ConfigArguments)
  deriving DecidableEq, Repr

/-- What would become of an identifier: the name with the letter of a member, if it gets one,
whether it keeps its underscores, and the result. -/
structure Explanation where
  identifier : Text
  marked : Option Text
  ignored : Bool
  result : Text
  deriving DecidableEq, Repr

namespace Explanation

/-- Explain what would become of an identifier. -/
def of (convention : Convention) (identifier : Text) : Explanation :=
  let marked := markMember? identifier
  { identifier, marked
    ignored := convention.ignores (marked.getD identifier)
    result := (convention.rename? identifier).getD identifier }

/-- Whether anything becomes of the identifier. -/
def changed (explanation : Explanation) : Bool :=
  explanation.result ≠ explanation.identifier

/-- The object that holds an explanation. -/
def toJson (explanation : Explanation) : Json :=
  .record (
    [("identifier".toList, .text explanation.identifier),
      ("ignored".toList, .bool explanation.ignored),
      ("result".toList, .text explanation.result),
      ("changed".toList, .bool explanation.changed)] ++
    Json.optional "prefixed".toList (explanation.marked.map Json.text))

end Explanation

namespace Command

/-- The exit status of a renaming that passed over files. -/
def partialStatus : Int := 3

/-- The exit status of a listing without files. -/
def noFilesStatus : Int := 1

/-- The ending that a result stands for. -/
def ending : Except Error (Json × Int) → Ending
  | .ok (data, status) => .success data status
  | .error error => .failure error

/-- Rename in the files of some directories. -/
def executeRename (paths : List Text) (arguments : ConfigArguments) (options : RunOptions)
    (world : World) : Except Error Report × World :=
  match arguments.resolve paths world with
  | .error error => (.error error, world)
  | .ok config =>
    let restorer := if options.restore.isSome then Restorer.versionControl else Restorer.none
    config.run options restorer world

/-- The exit status that goes with a report. -/
def statusOf (report : Report) : Int :=
  if report.failures.isEmpty then 0 else partialStatus

/-- The configuration of a listing, and the files that would be taken. -/
def executeFiles (paths : List Text) (arguments : ConfigArguments) (world : World) :
    Except Error (Config × List Text) := do
  let config ← arguments.resolve paths world
  let files ← config.select world
  pure (config, files)

/-- The object that lists files. -/
def listing (config : Config) (files : List Text) : Json :=
  .record [
    ("source_paths".toList, .texts config.paths),
    ("file_suffixes".toList, .texts config.suffixes),
    ("files".toList, .texts files),
    ("total_files".toList, .nat files.length)]

/-- Explain what would become of identifiers.  All of them have to be identifiers. -/
def executeExplain (identifiers : List Text) (arguments : ConfigArguments) (world : World) :
    Except Error (List Explanation) := do
  let config ← arguments.resolve [] world
  match identifiers.find? (!Character.isIdentifier ·) with
  | some other =>
    .error (.of (.invalidArgument "identifiers".toList
      ('\'' :: other ++ "' is not an identifier".toList)))
  | none => .ok (identifiers.map (Explanation.of config.toConvention))

/-- Execute a command. -/
def execute (command : Command) (world : World) : Ending × World :=
  match command with
  | rename paths arguments options =>
    let (result, world) := executeRename paths arguments options world
    (ending (result.map fun report => (report.toJson, statusOf report)), world)
  | files paths arguments =>
    let result := executeFiles paths arguments world
    (ending (result.map fun (config, selected) =>
      (listing config selected, if selected.isEmpty then noFilesStatus else 0)), world)
  | explain identifiers arguments =>
    let result := executeExplain identifiers arguments world
    (ending (result.map fun explanations =>
      (.record [("identifiers".toList, .array (explanations.map Explanation.toJson))], 0)), world)

end Command

end Recase
