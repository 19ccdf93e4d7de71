import Recase.Proofs.Overwriting
import Recase.Proofs.Rejection
import Mathlib

/-!
# Runs from a restored tree

A run that restores files calls its restorer once, before it does anything else, and goes on from
the surroundings that the restorer leaves, whether the restorer succeeds or not.  What the run finds
out there, and what it does, is what a run without a restoration does when it begins there; the
report only says besides how the restoration came out.
-/

namespace Recase

/-! ## Members of objects -/

namespace Json

theorem member?_fields (key : Text) (members : List (Text × Json)) :
    (fields members).member? key = Index.find key members := by
  induction members with
  | nil => rfl
  | cons member members ih =>
      obtain ⟨name, value⟩ := member
      rw [fields, member?] at ih ⊢
      rw [List.map_cons, List.find?_cons, Index.find]
      by_cases same : key = name
      · simp [same]
      · have different : name ≠ key := Ne.symm same
        simp only [Option.some.injEq, different, decide_false, same, if_false]
        exact ih

theorem member?_record (key : Text) (members : List (Text × Json)) :
    (record members).member? key = Index.find key members := by
  rw [record, member?_fields]
  exact Index.get?_ofList members key

end Json

namespace Index

variable {α : Type}

theorem find_append (key : Text) (left right : List (Text × α)) :
    find key (left ++ right) = (find key left).or (find key right) := by
  induction left with
  | nil => rw [List.nil_append, find, Option.none_or]
  | cons entry left ih =>
      rw [List.cons_append, find, find, ih]
      split
      · rfl
      · rfl

end Index

/-! ## What is told of an error -/

namespace Error

/-- The text that the details of an error hold under the key for errors, and the message of the
error if they hold none. -/
def detail (error : Error) : Text :=
  match error.cause.details.member? "error".toList with
  | some (.string (some text)) => text
  | _ => error.cause.message

theorem find_particulars (cause : Cause) :
    Index.find "error".toList cause.particulars = none := by
  cases cause with
  | invalidSetting key value problem => cases value <;> rfl
  | placeholderCollision placeholder file => cases file <;> rfl
  | system reason context => cases context <;> rfl
  | json reason context => cases context <;> rfl
  | _ => rfl

theorem text?_details (cause : Cause) :
    (cause.details.member? "error".toList).bind Json.text? = cause.reason? := by
  by_cases builtIn : cause.IsBuiltIn
  · rw [Cause.details_of_isBuiltIn builtIn, Json.member?_record, Index.find_append,
      find_particulars, Option.none_or]
    cases cause.reason? <;> rfl
  · cases cause with
    | custom => rfl
    | _ => exact absurd trivial builtIn

/-- The reason that an error gives is the one that its details hold. -/
theorem reason_eq_detail (error : Error) : error.reason = error.detail := by
  rw [reason, ← text?_details, detail]
  cases error.cause.details.member? "error".toList with
  | none => rfl
  | some value =>
      cases value with
      | string spelling => cases spelling <;> rfl
      | _ => rfl

end Error

/-! ## What is told of a restoration -/

/-- Whether the object for a restoration tells how a restorer came out that was called for a
directory: that files were restored and no error, or the error that kept them from it. -/
structure RestoreOutcome.Tells (outcome : RestoreOutcome) (root : Text)
    (result : Except Error Unit) : Prop where
  root : outcome.toJson.member? "root".toList = some (.text root)
  success : result = .ok () → outcome.toJson.member? "restored".toList = some (.bool true) ∧
    outcome.toJson.member? "error".toList = none
  failure : ∀ error, result = .error error →
    outcome.toJson.member? "restored".toList = some (.bool false) ∧
      outcome.toJson.member? "error".toList = some (.text error.detail)
  performed : outcome.toJson.member? "skipped".toList = none

namespace RestoreRequest

/-- Outside of trials a restoration leaves what the restorer leaves, and tells how it came out. -/
theorem tells_perform (request : RestoreRequest) (restorer : Restorer) (world : World) :
    (request.perform restorer false world).1.Tells (world.expand request.root)
      (restorer (world.expand request.root) request.exclude world).1 := by
  cases called : restorer (world.expand request.root) request.exclude world with
  | mk result after =>
      cases result with
      | ok _ =>
          have outcome : (request.perform restorer false world).1 =
              { root := world.expand request.root, result := .restored } := by
            simp only [perform, called, Bool.false_eq_true, if_false]
          rw [outcome]
          constructor
          · exact Json.member?_record _ _
          · intro _
            exact ⟨Json.member?_record _ _, Json.member?_record _ _⟩
          · intro error failed
            cases failed
          · exact Json.member?_record _ _
      | error error =>
          have outcome : (request.perform restorer false world).1 =
              { root := world.expand request.root, result := .failed error.reason } := by
            simp only [perform, called, Bool.false_eq_true, if_false]
          rw [outcome, error.reason_eq_detail]
          constructor
          · exact Json.member?_record _ _
          · intro succeeded
            cases succeeded
          · intro other failed
            cases failed
            exact ⟨Json.member?_record _ _, Json.member?_record _ _⟩
          · exact Json.member?_record _ _

end RestoreRequest

/-! ## Calls of a restorer -/

namespace Restorer

/-- The note that a restorer was called for a directory, with the paths to leave out. -/
def note (root : Text) (exclude : List Text) : Invocation where
  directory := []
  program := root
  arguments := exclude

/-- The restorer that does the same as another one and then leaves a note of the call. -/
def noted (restorer : Restorer) : Restorer := fun root exclude world =>
  let (result, after) := restorer root exclude world
  (result, { after with started := after.started ++ [note root exclude] })

end Restorer

namespace World

theorem started_write (path content context : Text) (world : World) :
    (World.write path content context world).2.started = world.started := by
  rw [World.write, store]
  cases world.tree.locateForWriting world.here path <;> rfl

end World

namespace Config

variable (config : Config)

theorem started_processFile (dryRun : Bool) (file : Text) (world : World) :
    (config.processFile dryRun file world).2.started = world.started := by
  rw [processFile]
  split
  · rfl
  · next rewrite changed planned =>
      have kept := World.started_write file rewrite.content ("write ".toList ++ file) world
      dsimp only
      split
      · generalize World.write file rewrite.content ("write ".toList ++ file) world = written
          at kept
        obtain ⟨result, next⟩ := written
        cases result <;> exact kept
      · rfl

theorem started_processFiles (options : RunOptions) (files : List Text) (world : World) :
    (config.processFiles options files world).2.started = world.started := by
  induction files generalizing world with
  | nil => rfl
  | cons file files ih =>
      have kept := config.started_processFile options.dryRun file world
      rw [processFiles]
      generalize config.processFile options.dryRun file world = taken at kept
      obtain ⟨result, next⟩ := taken
      have later : (config.processFiles options files next).2.started = world.started :=
        (ih next).trans kept
      cases result with
      | ok entry => exact later
      | error error =>
          dsimp only
          split
          · exact later
          · exact kept

/-- What a run starts, it starts before it selects its files. -/
theorem started_run (options : RunOptions) (restorer : Restorer) (world : World)
    (valid : config.validate = .ok ()) :
    (config.run options restorer world).2.started =
      (options.performRestore restorer world).2.started := by
  simp only [run, valid]
  split
  · rfl
  · exact config.started_processFiles options _ _

theorem processFiles_of_options {left right : RunOptions} (dryRun : left.dryRun = right.dryRun)
    (keepGoing : left.keepGoing = right.keepGoing) (files : List Text) (world : World) :
    config.processFiles left files world = config.processFiles right files world := by
  induction files generalizing world with
  | nil => rfl
  | cons file files ih => simp only [processFiles, dryRun, keepGoing, ih]

/-! ## A run and its restoration -/

/-- A run that restores files calls its restorer once, with the directory and the paths that were
asked for.  From there on it is a run without a restoration, whose report says besides how the
restoration came out. -/
theorem run_restored (config : Config) (valid : config.validate = .ok ()) {options : RunOptions}
    (real : options.dryRun = false) {request : RestoreRequest}
    (asked : options.restore = some request) (restorer : Restorer) (world : World) :
    (config.run options restorer.noted world).2.started =
        (restorer (world.expand request.root) request.exclude world).2.started ++
          [Restorer.note (world.expand request.root) request.exclude] ∧
      ∃ outcome : RestoreOutcome,
        outcome.Tells (world.expand request.root)
            (restorer (world.expand request.root) request.exclude world).1 ∧
          ∀ other, config.run options restorer world =
            ((config.run { options with restore := none } other
                (restorer (world.expand request.root) request.exclude world).2).1.map fun report =>
              { report with restore := some outcome },
              (config.run { options with restore := none } other
                (restorer (world.expand request.root) request.exclude world).2).2) := by
  constructor
  · rw [config.started_run options _ world valid,
      options.performRestore_eq_restorer _ world real asked]
    rfl
  · refine ⟨_, request.tells_perform restorer world, fun other => ?_⟩
    have performed : options.performRestore restorer world =
        (some (request.perform restorer false world).1,
          (restorer (world.expand request.root) request.exclude world).2) := by
      apply Prod.ext
      · simp only [RunOptions.performRestore, asked, real]
      · exact options.performRestore_eq_restorer restorer world real asked
    have unasked (after : World) :
        RunOptions.performRestore { options with restore := none } other after = (none, after) :=
      rfl
    simp only [run, valid, performed, unasked]
    split
    · rfl
    · next files selected =>
        have sameDryRun : RunOptions.dryRun { options with restore := none } = options.dryRun := rfl
        rw [config.processFiles_of_options sameDryRun rfl]
        generalize config.processFiles options files
          (restorer (world.expand request.root) request.exclude world).2 = taken
        obtain ⟨result, last⟩ := taken
        cases result <;> rfl

/-- The restorer that overwrites a file and then fails. -/
def failing : Restorer := fun root exclude world =>
  (.error (.of (.versionControl "no repository".toList)), (overwriting root exclude world).2)

/-- A run that looks for its files in one directory. -/
def oneSource : Config :=
  unfiltered ["src".toList] .lexical

/-- The restorer fails, and still the run rewrites what it has left. -/
theorem run_restored_failing :
    (oneSource.run { keepGoing := true, restore := some { root := ['.'], exclude := [['x']] } }
        failing.noted singleFile).2.started = [Restorer.note ['.'] [['x']]] ∧
      ∃ outcome : RestoreOutcome,
        outcome.toJson.member? "error".toList = some (.text "no repository".toList) ∧
          ∃ report after,
            oneSource.run { keepGoing := true } .none (failing ['.'] [['x']] singleFile).2 =
                (.ok report, after) ∧
              oneSource.run
                  { keepGoing := true, restore := some { root := ['.'], exclude := [['x']] } }
                  failing singleFile = (.ok { report with restore := some outcome }, after) := by
  have valid : oneSource.validate = .ok () := validate_unfiltered ["src".toList] .lexical
  have selected : oneSource.select (failing ['.'] [['x']] singleFile).2 =
      .ok ["src/a.cpp".toList] := by
    cbv
  have real : RunOptions.dryRun
      { keepGoing := true, restore := some { root := ['.'], exclude := [['x']] } } = false := rfl
  obtain ⟨called, outcome, tells, same⟩ := run_restored oneSource valid real rfl failing singleFile
  obtain ⟨report, after, ran⟩ := run_of_keepGoing .none valid
    (rfl : RunOptions.restore { keepGoing := true } = none) rfl selected
  have expanded : singleFile.expand ['.'] = ['.'] := by cbv
  have before : (failing ['.'] [['x']] singleFile).2.started = [] := by cbv
  simp only [expanded, before, List.nil_append] at called tells same
  refine ⟨called, outcome, (tells.failure _ rfl).2, report, after, ran, ?_⟩
  rw [same .none]
  exact congrArg (fun ended : Except Error Report × World =>
    (ended.1.map fun report => { report with restore := some outcome }, ended.2)) ran

end Config

end Recase
