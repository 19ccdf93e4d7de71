import Recase.CommandLine
import Recase.Proofs.Envelopes
import Recase.Proofs.Listing
import Mathlib

/-!
# Exit statuses

A script sees the exit status and the envelope, and they have to tell the same story.  The status of
a failure follows from its code.  The status of a success is zero unless a renaming has passed over
files or a listing is empty.  The status of the version control is never seen: a restoration that
fails becomes a part of the report.
-/

namespace Recase

/-! ## The statuses of errors -/

namespace Error

/-- The codes of the errors in what a command was given: its configuration, its arguments, and the
texts that it was to rewrite. -/
def usageCodes : List Text :=
  ["config.invalid_json".toList, "config.invalid_value".toList,
    "validation.missing_argument".toList, "validation.invalid_argument".toList,
    "rewrite.placeholder_collision".toList]

namespace Kind

theorem exitStatus_eq_two_iff (kind : Kind) : kind.exitStatus = 2 ↔ kind.code ∈ usageCodes := by
  cases kind <;> decide +kernel

theorem exitStatus_eq_four_iff (kind : Kind) :
    kind.exitStatus = 4 ↔ kind.code = "source.path_not_found".toList := by
  cases kind <;> decide +kernel

theorem code_eq_versionControl_iff (kind : Kind) :
    kind.code = "git.command_failed".toList ↔ kind = .versionControl := by
  cases kind <;> decide +kernel

end Kind

/-- Whether an error is one of the program itself and not of the version control. -/
structure IsOwn (error : Error) : Prop where
  builtIn : error.cause.IsBuiltIn
  kind : error.cause.kind ≠ .versionControl

/-- A program that fails on its own account ends with one of three statuses. -/
theorem IsOwn.exitStatus_mem {error : Error} (own : error.IsOwn) :
    error.cause.exitStatus ∈ [1, 2, 4] := by
  have statuses : ∀ kind : Kind, kind ≠ .versionControl → kind.exitStatus ∈ [1, 2, 4] := by
    intro kind
    cases kind <;> decide
  exact statuses _ own.kind

theorem IsOwn.code_ne {error : Error} (own : error.IsOwn) :
    error.cause.code ≠ "git.command_failed".toList :=
  (Kind.code_eq_versionControl_iff _).not.mpr own.kind

theorem IsOfFile.isOwn {error : Error} (ofFile : error.IsOfFile) : error.IsOwn := by
  cases ofFile <;> exact ⟨trivial, nofun⟩

end Error

/-! ## Where errors come from -/

/-- Whether a result fails, if it does, on its own account. -/
def FailsAlone {α : Type} (result : Except Error α) : Prop :=
  ∀ error, result = .error error → error.IsOwn

namespace FailsAlone

variable {α β : Type}

theorem ok (value : α) : FailsAlone (.ok value) := by
  intro error failed
  cases failed

theorem error {error : Error} (own : error.IsOwn) : FailsAlone (.error error : Except Error α) := by
  intro other failed
  cases failed
  exact own

theorem bind {result : Except Error α} {next : α → Except Error β} (first : FailsAlone result)
    (others : ∀ value, FailsAlone (next value)) : FailsAlone (result >>= next) := by
  cases result with
  | error fault => exact .error (first fault rfl)
  | ok value => exact others value

theorem require {condition : Bool} {otherwise : Error} (own : otherwise.IsOwn) :
    FailsAlone (Config.require condition otherwise) := by
  cases condition with
  | false => exact .error own
  | true => exact .ok ()

end FailsAlone

namespace Config

variable (config : Config)

theorem failsAlone_validate : FailsAlone config.validate := by
  have checked (condition : Bool) (setting : Setting) (value : Option Text) (problem : String) :
      FailsAlone (require condition (setting.invalid value problem)) :=
    .require ⟨trivial, nofun⟩
  unfold validate
  exact (checked _ _ _ _).bind fun _ => (checked _ _ _ _).bind fun _ =>
    (checked _ _ _ _).bind fun _ => (checked _ _ _ _).bind fun _ =>
      (checked _ _ _ _).bind fun _ => checked _ _ _ _

theorem failsAlone_parse (file content : Text) : FailsAlone (parse file content) := by
  unfold parse
  split
  · exact .error ⟨trivial, nofun⟩
  · exact (failsAlone_validate _).bind fun _ => .ok _

theorem failsAlone_load (world : World) (file : Text) : FailsAlone (load world file) := by
  refine FailsAlone.bind ?_ (failsAlone_parse file)
  intro error failed
  cases content : world.content file with
  | ok text =>
      rw [World.read, content] at failed
      cases failed
  | error fault =>
      rw [World.read, content] at failed
      cases failed
      exact (World.isOfFile_failure _ _).isOwn

theorem failsAlone_select (world : World) : FailsAlone (config.select world) := by
  unfold Sources.select
  split
  · exact .error ⟨trivial, nofun⟩
  · intro error failed
    obtain ⟨_, directory, _, -, -, -, rfl⟩ := Sources.selectAll_eq_error_iff.mp failed
    exact ⟨trivial, nofun⟩

/-- A run fails on its own account, for the error of a restoration is a part of the report. -/
theorem failsAlone_run (options : RunOptions) (restorer : Restorer) (world : World) :
    FailsAlone (config.run options restorer world).1 := by
  unfold run
  split
  · next error invalid => exact .error (config.failsAlone_validate error invalid)
  · dsimp only
    split
    · next error unselected => exact .error (config.failsAlone_select _ error unselected)
    · next files selected =>
        cases processed : config.processFiles options files
            (options.performRestore restorer world).2 with
        | mk result last =>
            cases result with
            | ok outcomes => exact .ok _
            | error error => exact .error (config.isOfFile_of_processFiles processed).isOwn

end Config

theorem Mode.failsAlone_ofArgument (name : Text) : FailsAlone (ofArgument name) := by
  unfold ofArgument
  split
  · exact .ok _
  · exact .error ⟨trivial, nofun⟩

theorem ConfigArguments.failsAlone_resolve (arguments : ConfigArguments) (paths : List Text)
    (world : World) : FailsAlone (arguments.resolve paths world) := by
  have base : FailsAlone (arguments.base world) := by
    unfold ConfigArguments.base
    split
    · exact Config.failsAlone_load world _
    · exact .ok _
  have checked (config : Config) : FailsAlone (do config.validate; pure config) :=
    config.failsAlone_validate.bind fun _ => .ok _
  unfold resolve
  refine base.bind fun base => ?_
  cases arguments.mode with
  | none => exact FailsAlone.bind (.ok _) fun _ => checked _
  | some name => exact (Mode.failsAlone_ofArgument name).bind fun _ => checked _

/-! ## How commands end -/

namespace Command

/-- Whether a command is a renaming that is told to pass over files that cannot be rewritten. -/
def KeepsGoing : Command → Prop
  | rename _ _ options => options.keepGoing = true
  | files .. | explain .. => False

/-- The endings of a command: a report, a listing, explanations, or an error of the program
itself. -/
inductive Ends : Command → Ending → Prop where
  | renamed {paths : List Text} {arguments : ConfigArguments} {options : RunOptions}
      (report : Report) (stopping : options.keepGoing = false → report.failures = []) :
      Ends (.rename paths arguments options) (.success report.toJson (statusOf report))
  | listed {paths : List Text} {arguments : ConfigArguments} (config : Config)
      (files : List Text) :
      Ends (.files paths arguments)
        (.success (listing config files) (if files.isEmpty then noFilesStatus else 0))
  | explained {identifiers : List Text} {arguments : ConfigArguments}
      (explanations : List Explanation) :
      Ends (.explain identifiers arguments)
        (.success (.record [("identifiers".toList,
          .array (explanations.map Explanation.toJson))]) 0)
  | failed (command : Command) {error : Error} (own : error.IsOwn) : Ends command (.failure error)

theorem failsAlone_executeRename (paths : List Text) (arguments : ConfigArguments)
    (options : RunOptions) (world : World) :
    FailsAlone (executeRename paths arguments options world).1 := by
  unfold executeRename
  split
  · next error unresolved =>
      exact .error (arguments.failsAlone_resolve paths world error unresolved)
  · exact Config.failsAlone_run _ options _ world

theorem failsAlone_executeFiles (paths : List Text) (arguments : ConfigArguments) (world : World) :
    FailsAlone (executeFiles paths arguments world) :=
  (arguments.failsAlone_resolve paths world).bind fun config =>
    (config.failsAlone_select world).bind fun _ => .ok _

theorem failsAlone_executeExplain (identifiers : List Text) (arguments : ConfigArguments)
    (world : World) : FailsAlone (executeExplain identifiers arguments world) := by
  refine (arguments.failsAlone_resolve [] world).bind fun config => ?_
  split
  · exact .error ⟨trivial, nofun⟩
  · exact .ok _

/-- A renaming that does not keep going passes over no file. -/
theorem failures_of_executeRename {paths : List Text} {arguments : ConfigArguments}
    {options : RunOptions} {world after : World} {report : Report}
    (renamed : executeRename paths arguments options world = (.ok report, after))
    (stopping : options.keepGoing = false) : report.failures = [] := by
  unfold executeRename at renamed
  split at renamed
  · cases renamed
  · obtain ⟨-, files, processed⟩ := Config.run_eq_ok renamed
    exact Config.failures_of_processFiles stopping processed

theorem ends_execute (command : Command) (world : World) :
    Ends command (command.execute world).1 := by
  cases command with
  | rename paths arguments options =>
      cases ran : executeRename paths arguments options world with
      | mk result after =>
          have alone := failsAlone_executeRename paths arguments options world
          rw [execute, ran]
          rw [ran] at alone
          cases result with
          | error error => exact .failed _ (alone error rfl)
          | ok report => exact .renamed report (failures_of_executeRename ran)
  | files paths arguments =>
      have alone := failsAlone_executeFiles paths arguments world
      rw [execute]
      cases result : executeFiles paths arguments world with
      | error error => exact .failed _ (alone error result)
      | ok listed => exact .listed listed.1 listed.2
  | explain identifiers arguments =>
      have alone := failsAlone_executeExplain identifiers arguments world
      rw [execute]
      cases result : executeExplain identifiers arguments world with
      | error error => exact .failed _ (alone error result)
      | ok explanations => exact .explained explanations

/-- Whatever a command ends with can be printed. -/
theorem Ends.isPrintable {command : Command} {ending : Ending} (ends : Ends command ending) :
    Json.IsPrintable ending.envelope := by
  cases ends with
  | renamed report => exact Ending.isPrintable_success report.isPrintable_toJson _
  | listed config files => exact Ending.isPrintable_success (isPrintable_listing config files) _
  | explained explanations =>
      have items := Json.isPrintable_map Explanation.isPrintable_toJson explanations
      exact Ending.isPrintable_success (Json.ArePrintable.cons items .nil).record _
  | failed _ own => exact Ending.isPrintable_failure own.builtIn

end Command

/-! ## Command lines -/

namespace CommandLine

/-- A command line that is accepted begins with the name of its command. -/
theorem exists_items_of_parse {arguments : List Text} {command : Command}
    (accepted : parse arguments = .ok command) :
    ∃ verb rest given, arguments = Verb.name verb :: rest ∧ items verb rest = .ok given ∧
      command = CommandLine.command verb given := by
  cases arguments with
  | nil => cases accepted
  | cons name rest =>
      rw [parse] at accepted
      split at accepted
      · cases accepted
      · next verb found =>
          have named : verb.name = name := by simpa using List.find?_some found
          split at accepted
          · cases accepted
          · next given cut =>
              split at accepted
              · cases accepted
              · split at accepted
                · cases accepted
                · split at accepted
                  · cases accepted
                    exact ⟨verb, rest, given, by rw [named], cut, rfl⟩
                  · cases accepted

/-- An option to which no value is attached is written as it stands. -/
theorem name_eq_of_splitOption {argument name : Text}
    (split : splitOption argument = (name, none)) : name = argument := by
  obtain ⟨front, back⟩ := Prod.mk.inj split
  have whole := List.takeWhile_append_dropWhile (p := (· != '=')) (l := argument)
  cases rest : argument.dropWhile (· != '=') with
  | nil =>
      rw [rest, List.append_nil] at whole
      exact front.symm.trans whole
  | cons c others =>
      rw [rest] at back
      cases back

/-- An item in front of others is another one, or else it is found behind it. -/
theorem exists_of_cons_eq_ok {item wanted : Item} {result : Except Refusal (List Item)}
    {given : List Item} (cut : result.map (item :: ·) = .ok given) (member : wanted ∈ given) :
    wanted = item ∨ ∃ others, result = .ok others ∧ wanted ∈ others := by
  cases result with
  | error refusal => cases cut
  | ok others =>
      cases cut
      exact (List.mem_cons.mp member).imp_right fun later => ⟨others, rfl, later⟩

/-- An option without value is among the arguments as it is written. -/
theorem name_mem_of_items {verb : Verb} {arguments : List Text} {given : List Item}
    {switch : Switch} (cut : items verb arguments = .ok given) (member : .switch switch ∈ given) :
    switch.name ∈ arguments := by
  fun_induction items verb arguments generalizing given with
  | case1 =>
      cases cut
      cases member
  | case2 rest =>
      cases cut
      obtain ⟨_, -, same⟩ := List.mem_map.mp member
      cases same
  | case3 argument rest _ _ ih =>
      obtain same | ⟨others, cutRest, later⟩ := exists_of_cons_eq_ok cut member
      · cases same
      · exact List.mem_cons_of_mem _ (ih cutRest later)
  | case4 argument _ _ _ _ value rest _ _ ih =>
      obtain same | ⟨others, cutRest, later⟩ := exists_of_cons_eq_ok cut member
      · cases same
      · exact List.mem_cons_of_mem _ (ih cutRest later)
  | case6 argument _ _ _ _ value rest _ _ _ ih =>
      obtain same | ⟨others, cutRest, later⟩ := exists_of_cons_eq_ok cut member
      · cases same
      · exact List.mem_cons_of_mem _ (List.mem_cons_of_mem _ (ih cutRest later))
  | case8 argument _ _ name rest _ written found split ih =>
      obtain same | ⟨others, cutRest, later⟩ := exists_of_cons_eq_ok cut member
      · cases same
        have named : switch.name = name := by simpa using List.find?_some found
        rw [named, name_eq_of_splitOption split]
        exact List.mem_cons_self
      · exact List.mem_cons_of_mem _ (ih cutRest later)
  | case10 =>
      cases cut
      cases List.mem_singleton.mp member
  | case5 | case7 | case9 | case11 => cases cut

end CommandLine

/-! ## Statuses and envelopes -/

namespace Json

/-- The items of the array that an object holds under a key. -/
def itemsOf (key : Text) (object : Json) : List Json :=
  match object.member? key with
  | some (.array items) => items
  | _ => []

theorem itemsOf_of_member? {key : Text} {object : Json} {items : List Json}
    (held : object.member? key = some (.array items)) : object.itemsOf key = items := by
  rw [itemsOf, held]

/-- Whether an envelope holds an error with a code. -/
def HasErrorCode (envelope : Json) (code : Text) : Prop :=
  ∃ error, envelope.member? "error".toList = some error ∧
    error.member? "code".toList = some (.text code)

end Json

/-- The failures of a report are left out of its object if there are none. -/
theorem Report.itemsOf_failures (report : Report) :
    report.toJson.itemsOf "failures".toList = report.failures.map FileFailure.toJson := by
  have held : report.toJson.member? "failures".toList =
      if report.failures.isEmpty then none
      else some (.array (report.failures.map FileFailure.toJson)) := by
    rw [toJson, Json.member?_record, List.append_assoc, Index.find_append, Index.find_append]
    cases report.restore <;> cases report.failures <;> rfl
  cases none : report.failures.isEmpty with
  | true =>
      rw [none, if_pos rfl] at held
      rw [Json.itemsOf, held, List.isEmpty_iff.mp none, List.map_nil]
  | false =>
      rw [none, if_neg (by decide)] at held
      exact Json.itemsOf_of_member? held

theorem Command.itemsOf_listing (config : Config) (files : List Text) :
    (listing config files).itemsOf "files".toList = files.map Json.text := by
  apply Json.itemsOf_of_member?
  rw [listing, Json.member?_record]
  rfl

namespace Ending

variable (data : Json) (status : Int) (error : Error)

theorem member?_envelope_success :
    (success data status).envelope.member? "success".toList = some (.bool true) ∧
      (success data status).envelope.member? "data".toList = some data ∧
      (success data status).envelope.member? "error".toList = none := by
  simp only [envelope, Json.member?_fields]
  exact ⟨rfl, rfl, rfl⟩

theorem member?_envelope_failure :
    (failure error).envelope.member? "success".toList = some (.bool false) ∧
      (failure error).envelope.member? "data".toList = none ∧
      (failure error).envelope.member? "error".toList = some error.toJson := by
  simp only [envelope, Json.member?_fields]
  exact ⟨rfl, rfl, rfl⟩

theorem not_hasErrorCode_success (code : Text) :
    ¬ (success data status).envelope.HasErrorCode code := by
  rintro ⟨fault, held, -⟩
  rw [(member?_envelope_success data status).2.2] at held
  cases held

theorem hasErrorCode_failure_iff (code : Text) :
    (failure error).envelope.HasErrorCode code ↔ error.cause.code = code := by
  have coded : error.toJson.member? "code".toList = some (.text error.cause.code) := by
    rw [Error.toJson, Json.member?_fields]
    rfl
  rw [Json.HasErrorCode, (member?_envelope_failure error).2.2]
  constructor
  · rintro ⟨fault, held, other⟩
    cases held
    rw [coded] at other
    cases other
    rfl
  · rintro rfl
    exact ⟨_, rfl, coded⟩

end Ending

namespace CommandLine

/-- Whether an envelope and an exit status tell the same of a command line and its command.  The
envelope holds either data or an error.  The status is zero for a success, three for a renaming that
has passed over files, two for an error in what the command was given, and four if a source
directory is missing. -/
structure Accords (arguments : List Text) (command : Command) (envelope : Json) (status : Nat) :
    Prop where
  exclusive : (envelope.member? "data".toList).isSome = !(envelope.member? "error".toList).isSome
  success : envelope.member? "success".toList =
    some (.bool (envelope.member? "data".toList).isSome)
  bounded : status ≤ 4
  own : ¬ envelope.HasErrorCode "git.command_failed".toList
  coded : (envelope.member? "error".toList).isSome → ∃ code, envelope.HasErrorCode code
  zero : status = 0 ↔ ∃ data, envelope.member? "data".toList = some data ∧
    (arguments.head? = some "rename".toList → data.itemsOf "failures".toList = []) ∧
    (arguments.head? = some "files".toList → data.itemsOf "files".toList ≠ [])
  three : status = 3 ↔ arguments.head? = some "rename".toList ∧
    ∃ data, envelope.member? "data".toList = some data ∧ data.itemsOf "failures".toList ≠ []
  keepGoing : status = 3 → command.KeepsGoing ∧ "--keep-going".toList ∈ arguments
  two : status = 2 ↔ ∃ code ∈ Error.usageCodes, envelope.HasErrorCode code
  four : status = 4 ↔ envelope.HasErrorCode "source.path_not_found".toList

theorem accords_failure (arguments : List Text) (command : Command) {error : Error}
    (own : error.IsOwn) :
    Accords arguments command (Ending.failure error).envelope
      (Ending.failure error).exitByte := by
  obtain ⟨success, data, held⟩ := Ending.member?_envelope_failure error
  have listed := own.exitStatus_mem
  have byte : (Ending.failure error).exitByte = error.cause.exitStatus := by
    rw [Ending.exitByte, Ending.status, Int.toNat_natCast]
    simp only [List.mem_cons, List.not_mem_nil, or_false] at listed
    omega
  rw [byte]
  simp only [List.mem_cons, List.not_mem_nil, or_false] at listed
  constructor
  · rw [data, held]
    rfl
  · rw [data, success]
    rfl
  · omega
  · exact (Ending.hasErrorCode_failure_iff error _).not.mpr own.code_ne
  · exact fun _ => ⟨_, (Ending.hasErrorCode_failure_iff error _).mpr rfl⟩
  · refine iff_of_false (by omega) ?_
    rintro ⟨present, there, -⟩
    rw [data] at there
    cases there
  · refine iff_of_false (by omega) ?_
    rintro ⟨-, present, there, -⟩
    rw [data] at there
    cases there
  · intro three
    omega
  · simp only [Ending.hasErrorCode_failure_iff, exists_eq_right']
    exact error.cause.kind.exitStatus_eq_two_iff
  · rw [Ending.hasErrorCode_failure_iff]
    exact error.cause.kind.exitStatus_eq_four_iff

theorem accords_success {arguments : List Text} {command : Command} {data : Json} {status : Int}
    (small : status = 0 ∨ status = 1 ∨ status = 3)
    (zero : status = 0 ↔
      (arguments.head? = some "rename".toList → data.itemsOf "failures".toList = []) ∧
        (arguments.head? = some "files".toList → data.itemsOf "files".toList ≠ []))
    (three : status = 3 ↔
      arguments.head? = some "rename".toList ∧ data.itemsOf "failures".toList ≠ [])
    (keepGoing : status = 3 → command.KeepsGoing ∧ "--keep-going".toList ∈ arguments) :
    Accords arguments command (Ending.success data status).envelope
      (Ending.success data status).exitByte := by
  obtain ⟨success, held, noError⟩ := Ending.member?_envelope_success data status
  have zeroByte : (Ending.success data status).exitByte = 0 ↔ status = 0 := by
    rcases small with rfl | rfl | rfl <;> simp [Ending.exitByte, Ending.status]
  have threeByte : (Ending.success data status).exitByte = 3 ↔ status = 3 := by
    rcases small with rfl | rfl | rfl <;> simp [Ending.exitByte, Ending.status]
  have otherByte : (Ending.success data status).exitByte ≤ 3 ∧
      (Ending.success data status).exitByte ≠ 2 := by
    rcases small with rfl | rfl | rfl <;> simp [Ending.exitByte, Ending.status]
  constructor
  · rw [held, noError]
    rfl
  · rw [held, success]
    rfl
  · omega
  · exact Ending.not_hasErrorCode_success data status _
  · rw [noError]
    intro absent
    cases absent
  · rw [zeroByte, zero, held]
    simp only [Option.some.injEq, exists_eq_left']
  · rw [threeByte, three, held]
    simp only [Option.some.injEq, exists_eq_left']
  · exact fun byte => keepGoing (threeByte.mp byte)
  · refine iff_of_false otherByte.2 ?_
    rintro ⟨code, -, has⟩
    exact Ending.not_hasErrorCode_success data status code has
  · exact iff_of_false (by omega) (Ending.not_hasErrorCode_success data status _)

/-- A command line with one verb does not begin with the name of another one. -/
theorem head?_ne_name {verb other : Verb} (different : verb ≠ other) (rest : List Text) :
    (verb.name :: rest).head? ≠ some other.name := by
  have names : verb.name ≠ other.name := by
    revert different
    cases verb <;> cases other <;> decide
  exact fun same => names (Option.some.inj same)

/-- A renaming accords, for it passes over files only if it is told to. -/
theorem accords_report {rest : List Text} {command : Command} {report : Report}
    (keepGoing : report.failures ≠ [] → command.KeepsGoing ∧ "--keep-going".toList ∈ rest) :
    Accords (Verb.rename.name :: rest) command
      (Ending.success report.toJson (Command.statusOf report)).envelope
      (Ending.success report.toJson (Command.statusOf report)).exitByte := by
  have renames : (Verb.rename.name :: rest).head? = some "rename".toList := rfl
  have lists := head?_ne_name (by decide : Verb.rename ≠ .files) rest
  have failures : report.toJson.itemsOf "failures".toList ≠ [] ↔ report.failures ≠ [] := by
    rw [report.itemsOf_failures, ne_eq, List.map_eq_nil_iff]
  cases empty : report.failures.isEmpty with
  | true =>
      have nothing : report.failures = [] := List.isEmpty_iff.mp empty
      have status : Command.statusOf report = 0 := by rw [Command.statusOf, empty, if_pos rfl]
      rw [status]
      refine accords_success (.inl rfl) ?_ ?_ ?_
      · exact iff_of_true rfl ⟨fun _ => not_not.mp (failures.not.mpr (not_not.mpr nothing)),
          fun wrong => absurd wrong lists⟩
      · exact iff_of_false (by decide) fun some => failures.mp some.2 nothing
      · intro other
        cases other
  | false =>
      have something : report.failures ≠ [] := by simpa using empty
      have status : Command.statusOf report = 3 := by
        rw [Command.statusOf, empty, if_neg (by decide)]
        rfl
      rw [status]
      refine accords_success (.inr (.inr rfl)) ?_ ?_ ?_
      · exact iff_of_false (by decide) fun none => failures.mpr something (none.1 renames)
      · exact iff_of_true rfl ⟨renames, failures.mpr something⟩
      · exact fun _ => (keepGoing something).imp_right (List.mem_cons_of_mem _)

theorem accords_listing (rest : List Text) (command : Command) (config : Config)
    (files : List Text) :
    Accords (Verb.files.name :: rest) command
      (Ending.success (Command.listing config files)
        (if files.isEmpty then Command.noFilesStatus else 0)).envelope
      (Ending.success (Command.listing config files)
        (if files.isEmpty then Command.noFilesStatus else 0)).exitByte := by
  have lists : (Verb.files.name :: rest).head? = some "files".toList := rfl
  have renames := head?_ne_name (by decide : Verb.files ≠ .rename) rest
  have listed : (Command.listing config files).itemsOf "files".toList ≠ [] ↔ files ≠ [] := by
    rw [Command.itemsOf_listing, ne_eq, List.map_eq_nil_iff]
  cases empty : files.isEmpty with
  | true =>
      have nothing : files = [] := List.isEmpty_iff.mp empty
      rw [if_pos rfl, Command.noFilesStatus]
      refine accords_success (.inr (.inl rfl)) ?_ ?_ ?_
      · exact iff_of_false (by decide) fun some => listed.mp (some.2 lists) nothing
      · exact iff_of_false (by decide) fun wrong => renames wrong.1
      · intro other
        cases other
  | false =>
      have something : files ≠ [] := by simpa using empty
      rw [if_neg (by decide)]
      refine accords_success (.inl rfl) ?_ ?_ ?_
      · exact iff_of_true rfl ⟨fun wrong => absurd wrong renames, fun _ => listed.mpr something⟩
      · exact iff_of_false (by decide) fun wrong => renames wrong.1
      · intro other
        cases other

theorem accords_explanations (rest : List Text) (command : Command) (data : Json) :
    Accords (Verb.explain.name :: rest) command (Ending.success data 0).envelope
      (Ending.success data 0).exitByte := by
  have renames := head?_ne_name (by decide : Verb.explain ≠ .rename) rest
  have lists := head?_ne_name (by decide : Verb.explain ≠ .files) rest
  refine accords_success (.inl rfl) ?_ ?_ ?_
  · exact iff_of_true rfl ⟨fun wrong => absurd wrong renames, fun wrong => absurd wrong lists⟩
  · exact iff_of_false (by decide) fun wrong => renames wrong.1
  · intro other
    cases other

/-- A command line that is accepted prints one envelope, and the exit status accords with it. -/
theorem run_accords {arguments : List Text} {command : Command}
    (accepted : parse arguments = .ok command) (world : World) :
    ∃ envelope, Json.Document envelope (run arguments world).1.output ∧
      Accords arguments command envelope (run arguments world).1.exitByte := by
  obtain ⟨verb, rest, given, rfl, cut, rfl⟩ := exists_items_of_parse accepted
  have ends := (CommandLine.command verb given).ends_execute world
  have ran : (run (verb.name :: rest) world).1 =
      .ended ((CommandLine.command verb given).execute world).1 := by
    rw [run, accepted]
  rw [ran]
  generalize ((CommandLine.command verb given).execute world).1 = ending at ends
  refine ⟨ending.envelope, Ending.document_output ends.isPrintable, ?_⟩
  change Accords _ _ _ ending.exitByte
  cases verb with
  | rename =>
      cases ends with
      | failed _ own => exact accords_failure _ _ own
      | renamed report stopping =>
          apply accords_report
          intro something
          have going : has .keepGoing given = true := by
            by_contra stops
            exact something (stopping (Bool.eq_false_iff.mpr stops))
          exact ⟨going, name_mem_of_items cut (List.contains_iff_mem.mp going)⟩
  | files =>
      cases ends with
      | failed _ own => exact accords_failure _ _ own
      | listed config files => exact accords_listing rest _ config files
  | explain =>
      cases ends with
      | failed _ own => exact accords_failure _ _ own
      | explained explanations => exact accords_explanations rest _ _

/-- A directory with a file that holds the placeholder. -/
def collision : World where
  tree := (Tree.empty.set [['s']] .directory).addFile [['s'], ['a', '.', 'h']]
    { bytes := Text.encode ['§'] }

/-- The renaming keeps going past the file and ends with the status three. -/
theorem run_accords_collision :
    ∃ envelope,
      Json.Document envelope
        (run ["rename".toList, "--keep-going".toList, ['s']] collision).1.output ∧
      Accords ["rename".toList, "--keep-going".toList, ['s']]
        (.rename [['s']] {} { keepGoing := true }) envelope 3 := by
  have accepted : parse ["rename".toList, "--keep-going".toList, ['s']] =
      .ok (.rename [['s']] {} { keepGoing := true }) := by
    decide +kernel
  have status : (run ["rename".toList, "--keep-going".toList, ['s']] collision).1.exitByte = 3 := by
    decide +kernel
  obtain ⟨envelope, printed, accords⟩ := run_accords accepted collision
  rw [status] at accords
  exact ⟨envelope, printed, accords⟩

end CommandLine

end Recase
