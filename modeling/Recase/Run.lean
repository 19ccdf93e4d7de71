import Recase.Report
import Recase.Restore
import Recase.Selection

/-!
# Runs

A run selects files and rewrites them one after the other: each file is read, rewritten and written
before the next one is read.  A trial run writes nothing.
-/

namespace Recase

/-- What a run may be asked for: to write nothing, to pass over files that cannot be rewritten, and
to restore files first. -/
structure RunOptions where
  dryRun : Bool := false
  keepGoing : Bool := false
  restore : Option RestoreRequest := none
  deriving DecidableEq, Repr

namespace Config

/-- The error of a rewriting with the file it is about. -/
def blame (config : Config) (file : Text) (error : Error) : Error :=
  match error.cause with
  | .placeholderCollision .. => .of (.placeholderCollision config.placeholder (some file))
  | _ => error

/-- Read a file and find out what it is rewritten to, and whether that is another text. -/
def plan (config : Config) (file : Text) (world : World) : Except Error (Rewrite × Bool) := do
  let content ← world.read file ("read ".toList ++ file)
  let rewrite ← (config.rewrite content).mapError (config.blame file)
  pure (rewrite, rewrite.content ≠ content)

/-- Rewrite a file.  It is written only if its text changes. -/
def processFile (config : Config) (dryRun : Bool) (file : Text) (world : World) :
    Except Error FileRewrite × World :=
  match config.plan file world with
  | .error error => (.error error, world)
  | .ok (rewrite, changed) =>
    let outcome (written : Bool) : FileRewrite :=
      { file, replacements := rewrite.replacements, renames := rewrite.renames, written }
    if changed && !dryRun then
      match world.write file rewrite.content ("write ".toList ++ file) with
      | (.ok _, world) => (.ok (outcome true), world)
      | (.error error, world) => (.error error, world)
    else
      (.ok (outcome false), world)

/-- Rewrite files in order.  The first file that cannot be rewritten is the last one that is taken,
unless the options say to keep going. -/
def processFiles (config : Config) (options : RunOptions) :
    List Text → World → Except Error (List FileOutcome) × World
  | [], world => (.ok [], world)
  | file :: files, world =>
    let taken (outcome : FileOutcome) (world : World) :
        Except Error (List FileOutcome) × World :=
      let (outcomes, world) := processFiles config options files world
      (outcomes.map (outcome :: ·), world)
    match config.processFile options.dryRun file world with
    | (.ok rewrite, world) => taken (.rewritten rewrite) world
    | (.error error, world) =>
      if options.keepGoing then taken (.failed { file, error }) world else (.error error, world)

end Config

/-- Restore files as requested, unless the run is a trial.  A failure is part of the outcome and
does not end the run. -/
def RestoreRequest.perform (request : RestoreRequest) (restorer : Restorer) (dryRun : Bool)
    (world : World) : RestoreOutcome × World :=
  let root := world.expand request.root
  if dryRun then
    ({ root, result := .skipped }, world)
  else
    match restorer root request.exclude world with
    | (.ok _, world) => ({ root, result := .restored }, world)
    | (.error error, world) => ({ root, result := .failed error.reason }, world)

namespace RunOptions

/-- Restore files, if the options ask for it. -/
def performRestore (options : RunOptions) (restorer : Restorer) (world : World) :
    Option RestoreOutcome × World :=
  match options.restore with
  | none => (none, world)
  | some request =>
    let (outcome, world) := request.perform restorer options.dryRun world
    (some outcome, world)

end RunOptions

namespace Config

/-- Select files and rewrite them.  Files are restored before they are selected. -/
def run (config : Config) (options : RunOptions) (restorer : Restorer) (world : World) :
    Except Error Report × World :=
  match config.validate with
  | .error error => (.error error, world)
  | .ok _ =>
    let (restore, world) := options.performRestore restorer world
    match config.select world with
    | .error error => (.error error, world)
    | .ok files =>
      let (outcomes, world) := config.processFiles options files world
      (outcomes.map fun outcomes =>
        { mode := config.mode, dryRun := options.dryRun, restore, outcomes }, world)

end Config

end Recase
