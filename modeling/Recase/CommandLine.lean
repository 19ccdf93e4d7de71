import Recase.Command

/-!
# Command lines

A command line names a command and goes on with options and operands in any order.  The value of an
option follows it, or is attached to it by an equals sign.  Behind a double hyphen everything is an
operand.
-/

namespace Recase

/-- Why no command is executed: the command line is malformed, or it asks for something else. -/
inductive Refusal where
  | malformed
  | help
  | version
  deriving DecidableEq, Repr

namespace CommandLine

/-- The name of a command. -/
inductive Verb where
  | rename
  | files
  | explain
  deriving DecidableEq, Repr

/-- An option that takes a value. -/
inductive Parameter where
  | config
  | suffix
  | ignore
  | mode
  | restoreRoot
  | restoreExclude
  deriving DecidableEq, Repr

/-- An option without value. -/
inductive Switch where
  | markOnly
  | dryRun
  | keepGoing
  | restore
  deriving DecidableEq, Repr

/-- How a command is written. -/
def Verb.name : Verb → Text
  | rename => "rename".toList
  | files => "files".toList
  | explain => "explain".toList

/-- The command with a name. -/
def Verb.ofName? (name : Text) : Option Verb :=
  [Verb.rename, Verb.files, Verb.explain].find? (·.name = name)

/-- How an option that takes a value is written. -/
def Parameter.name : Parameter → Text
  | config => "--config".toList
  | suffix => "--suffix".toList
  | ignore => "--ignore".toList
  | mode => "--mode".toList
  | restoreRoot => "--restore-root".toList
  | restoreExclude => "--restore-exclude".toList

/-- Whether an option may be given more than once. -/
def Parameter.repeats : Parameter → Bool
  | suffix | ignore | restoreExclude => true
  | config | mode | restoreRoot => false

/-- Whether an option is about restoring. -/
def Parameter.isAboutRestoring : Parameter → Bool
  | restoreRoot | restoreExclude => true
  | config | suffix | ignore | mode => false

/-- How an option without value is written. -/
def Switch.name : Switch → Text
  | markOnly => "--prefix-only".toList
  | dryRun => "--dry-run".toList
  | keepGoing => "--keep-going".toList
  | restore => "--restore".toList

/-- The options of a command that take a value. -/
def Verb.parameters : Verb → List Parameter
  | rename => [.config, .suffix, .ignore, .mode, .restoreRoot, .restoreExclude]
  | files | explain => [.config, .suffix, .ignore, .mode]

/-- The options of a command without value. -/
def Verb.switches : Verb → List Switch
  | rename => [.markOnly, .dryRun, .keepGoing, .restore]
  | files | explain => [.markOnly]

/-- A part of a command line behind the command.  Nothing is read behind a request for help. -/
inductive Item where
  | setting (parameter : Parameter) (value : Text)
  | switch (switch : Switch)
  | operand (value : Text)
  | help
  deriving DecidableEq, Repr

/-! ## Items -/

/-- Whether an argument is an option.  A lone hyphen is none. -/
def isOption (argument : Text) : Bool :=
  argument.head? == some '-' && argument ≠ ['-']

/-- Whether an argument is a request for help. -/
def asksForHelp (argument : Text) : Bool :=
  argument = "--help".toList ∨ argument.take 2 = ['-', 'h']

/-- An option as it is written, and the value attached to it. -/
def splitOption (argument : Text) : Text × Option Text :=
  (argument.takeWhile (· != '='), ((argument.dropWhile (· != '=')).tail?))

/-- The items of a command. -/
def items (verb : Verb) : List Text → Except Refusal (List Item)
  | [] => .ok []
  | argument :: rest =>
    if argument = ['-', '-'] then
      .ok (rest.map Item.operand)
    else if !isOption argument then
      (items verb rest).map (.operand argument :: ·)
    else
      let (name, attached) := splitOption argument
      match verb.parameters.find? (·.name = name), attached, rest with
      | some parameter, some value, rest => (items verb rest).map (.setting parameter value :: ·)
      | some parameter, none, value :: rest =>
        if isOption value then .error .malformed
        else (items verb rest).map (.setting parameter value :: ·)
      | some _, none, [] => .error .malformed
      | none, attached, rest =>
        match verb.switches.find? (·.name = name), attached with
        | some switch, none => (items verb rest).map (.switch switch :: ·)
        | some _, some _ => .error .malformed
        | none, _ =>
          if asksForHelp argument then .ok [.help] else .error .malformed

/-- The values of an option. -/
def valuesOf (parameter : Parameter) (items : List Item) : List Text :=
  items.filterMap fun
    | .setting other value => if other = parameter then some value else none
    | _ => none

/-- Whether an option without value is given. -/
def has (switch : Switch) (items : List Item) : Bool :=
  items.contains (.switch switch)

/-- The operands. -/
def operands (items : List Item) : List Text :=
  items.filterMap fun
    | .operand value => some value
    | _ => none

/-- Whether no option is given more often than it may be. -/
def repeatsOnlyWhereAllowed (verb : Verb) (items : List Item) : Bool :=
  (verb.parameters.all fun parameter =>
    parameter.repeats || (valuesOf parameter items).length ≤ 1) &&
  verb.switches.all fun switch => items.count (.switch switch) ≤ 1

/-- Whether options about restoring are given only along with the option to restore. -/
def restoresIfAsked (verb : Verb) (items : List Item) : Bool :=
  has .restore items ||
    verb.parameters.all fun parameter =>
      !parameter.isAboutRestoring || (valuesOf parameter items).isEmpty

/-- Whether the operands are there that a command cannot do without. -/
def hasOperands (verb : Verb) (items : List Item) : Bool :=
  verb ≠ .explain || !(operands items).isEmpty

/-! ## Commands -/

/-- The arguments from which a configuration is made up. -/
def configArguments (items : List Item) : ConfigArguments where
  file := (valuesOf .config items).head?
  suffixes := valuesOf .suffix items
  ignore := valuesOf .ignore items
  mode := (valuesOf .mode items).head?
  markOnly := has .markOnly items

/-- The request to restore files.  Without a directory it is about the current one. -/
def restoreRequest (items : List Item) : Option RestoreRequest :=
  if has .restore items then
    some
      { root := (valuesOf .restoreRoot items).head?.getD ['.']
        exclude := valuesOf .restoreExclude items }
  else
    none

/-- What a run is asked for. -/
def runOptions (items : List Item) : RunOptions where
  dryRun := has .dryRun items
  keepGoing := has .keepGoing items
  restore := restoreRequest items

/-- The command that a verb and its items make up. -/
def command (verb : Verb) (items : List Item) : Command :=
  let arguments := configArguments items
  match verb with
  | .rename => .rename (operands items) arguments (runOptions items)
  | .files => .files (operands items) arguments
  | .explain => .explain (operands items) arguments

/-- What is asked for by a command line that begins with no command. -/
def refuse : List Text → Refusal
  | [] => .malformed
  | argument :: rest =>
    if argument = "--version".toList ∨ argument.take 2 = ['-', 'V'] then .version
    else if asksForHelp argument then .help
    else if argument = "help".toList then
      match rest with
      | [] => .help
      | [name] =>
        if name = "help".toList ∨ (Verb.ofName? name).isSome then .help else .malformed
      | _ => .malformed
    else .malformed

/-- The command that a command line asks for. -/
def parse (arguments : List Text) : Except Refusal Command :=
  match arguments with
  | [] => .error (refuse [])
  | name :: rest =>
    match Verb.ofName? name with
    | none => .error (refuse (name :: rest))
    | some verb =>
      match items verb rest with
      | .error refusal => .error refusal
      | .ok items =>
        if !repeatsOnlyWhereAllowed verb items then .error .malformed
        else if items.contains .help then .error .help
        else if restoresIfAsked verb items && hasOperands verb items then .ok (command verb items)
        else .error .malformed

/-! ## Responses -/

/-- The name and the version of the program. -/
def versionLine : Text :=
  "varcase 0.1.0\n".toList

/-- What a command line leads to. -/
inductive Response where
  | refused (refusal : Refusal)
  | ended (ending : Ending)

namespace Response

/-- What is printed to the standard output. -/
def output : Response → Text
  | refused .version => versionLine
  | refused .malformed | refused .help => []
  | ended ending => ending.output

/-- The exit status of the process. -/
def exitByte : Response → Nat
  | refused .malformed => 2
  | refused .help | refused .version => 0
  | ended ending => ending.exitByte

end Response

/-- Execute a command line. -/
def run (arguments : List Text) (world : World) : Response × World :=
  match parse arguments with
  | .error refusal => (.refused refusal, world)
  | .ok command =>
    let (ending, world) := command.execute world
    (.ended ending, world)

end CommandLine

end Recase
