import Recase.Config
import Recase.Json.Printer
import Recase.Json.Reader
import Recase.World

/-!
# Configuration files

A configuration file is a JSON document.  Its settings are the members of an object, or the items
of an array in the order of the settings.  A setting that is missing has its default, and members
that are no settings are passed over.  The source directories are understood from the directory of
the file.
-/

namespace Recase

namespace Json

/-- The text that a value is. -/
def asText? : Json → Option Text
  | .string spelling => spelling
  | _ => none

/-- The list of texts that a value is. -/
def asTexts? : Json → Option (List Text)
  | .array items => items.mapM asText?
  | _ => none

/-- The truth value that a value is. -/
def asBool? : Json → Option Bool
  | .bool value => some value
  | _ => none

/-- The single character that a value is. -/
def asChar? : Json → Option Char
  | .string (some [c]) => some c
  | _ => none

end Json

/-- The mode that a value is: its name, or an object whose only member has that name and no
value. -/
def Mode.ofJson? : Json → Option Mode
  | .string (some name) => ofName? name
  | .object [(some name, .null)] => ofName? name
  | _ => none

namespace Config

/-- What a document says about a setting, if it says anything. -/
abbrev Given := Setting → Option Json

namespace Given

/-- What a setting is given to be, or its default. -/
def value {α : Type} (given : Given) (setting : Setting) (read? : Json → Option α) (absent : α) :
    Option α :=
  match given setting with
  | some value => read? value
  | none => some absent

/-- The configuration that the settings make up. -/
def config? (given : Given) : Option Config := do
  let ignored? (value : Json) : Option Names := value.asTexts?.map Names.ofList
  let paths ← given.value .sourcePaths Json.asTexts? default.paths
  let suffixes ← given.value .fileSuffixes Json.asTexts? default.suffixes
  let ignored ← given.value .ignoredIdentifiers ignored? default.ignored
  let memberMarker ← given.value .memberPrefixMarker Json.asText? default.memberMarker
  let argumentMarker ← given.value .argumentPrefixMarker Json.asText? default.argumentMarker
  let separator ← given.value .separator Json.asText? default.separator
  let placeholder ← given.value .placeholder Json.asChar? default.placeholder
  let mode ← given.value .mode Mode.ofJson? default.mode
  let camelCase ← given.value .camelCase Json.asBool? default.camelCase
  some
    { paths, suffixes, ignored, memberMarker, argumentMarker, separator, placeholder, mode,
      camelCase }

end Given

/-- The values of the members with a key. -/
def valuesOf (key : Text) (members : List (Json.Spelling × Json)) : List Json :=
  (members.filter fun member => member.1 = some key).map Prod.snd

/-- The configuration that a value describes.  No setting may be given twice. -/
def ofJson? : Json → Option Config
  | .object members =>
    if members.all (fun member => member.1.isSome) &&
        Setting.all.all (fun setting => (valuesOf setting.key members).length ≤ 1) then
      Given.config? fun setting => (valuesOf setting.key members).head?
    else
      none
  | .array items =>
    if items.length ≤ Setting.all.length then
      Given.config? fun setting => items[Setting.all.idxOf setting]?
    else
      none
  | _ => none

/-- What a configuration says about a setting. -/
def setting (config : Config) : Setting → Json
  | .sourcePaths => .texts config.paths
  | .fileSuffixes => .texts config.suffixes
  | .ignoredIdentifiers => .texts config.ignored.toList
  | .memberPrefixMarker => .text config.memberMarker
  | .argumentPrefixMarker => .text config.argumentMarker
  | .separator => .text config.separator
  | .placeholder => .text [config.placeholder]
  | .mode => .text config.mode.name
  | .camelCase => .bool config.camelCase

/-- The object that describes a configuration. -/
def toJson (config : Config) : Json :=
  .fields (Setting.all.map fun setting => (setting.key, config.setting setting))

/-- The array that describes a configuration. -/
def toArray (config : Config) : Json :=
  .array (Setting.all.map config.setting)

/-- The configuration with its source directories understood from the directory of a file. -/
def relativeTo (file : Text) (config : Config) : Config :=
  match Path.parent? file with
  | some directory => { config with paths := config.paths.map (Path.join directory) }
  | none => config

/-- The configuration that the text of a file describes. -/
def parse (file content : Text) : Except Error Config := do
  match Json.read? content >>= ofJson? with
  | none => .error (.of (.malformedConfig file))
  | some config =>
    let config := config.relativeTo file
    config.validate
    pure config

/-- Read a configuration file. -/
def load (world : World) (file : Text) : Except Error Config := do
  parse file (← world.read file ("read ".toList ++ file))

end Config

end Recase
