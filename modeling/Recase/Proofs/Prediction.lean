import Recase.Proofs.Effect
import Recase.Proofs.Overwriting
import Recase.Proofs.Rejection
import Mathlib

/-!
# Trial runs

A trial run writes nothing and restores nothing.  It reads every file from the surroundings as they
are at its beginning, while a run in earnest reads a file when those in front of it have been
written.  If no two of the selected paths lead to the same file this makes no difference: the two
runs end with the same error, or their reports tell the same of every file, except that a trial
never reports a file as written.
-/

namespace Recase

/-! ## Reports of trials -/

/-- The entry of a file that has not been written. -/
def FileRewrite.unwritten (entry : FileRewrite) : FileRewrite :=
  { entry with written := false }

/-- What a trial finds out where another run comes to an outcome. -/
def FileOutcome.unwritten : FileOutcome → FileOutcome
  | .rewritten entry => .rewritten entry.unwritten
  | .failed failure => .failed failure

theorem filterMap_rewrite?_unwritten (outcomes : List FileOutcome) :
    (outcomes.map FileOutcome.unwritten).filterMap FileOutcome.rewrite? =
      (outcomes.filterMap FileOutcome.rewrite?).map FileRewrite.unwritten := by
  rw [List.filterMap_map, List.map_filterMap]
  apply List.filterMap_congr
  intro outcome _
  cases outcome <;> rfl

theorem filterMap_failure?_unwritten (outcomes : List FileOutcome) :
    (outcomes.map FileOutcome.unwritten).filterMap FileOutcome.failure? =
      outcomes.filterMap FileOutcome.failure? := by
  rw [List.filterMap_map]
  apply List.filterMap_congr
  intro outcome _
  cases outcome <;> rfl

/-- What the report of a trial tells of a run that is none, and that leaves other surroundings
behind.  The two tell the same but for what has been written: nothing in a trial, and otherwise the
files whose content is another one now. -/
structure Report.Predicts (predicted report : Report) (world after : World) : Prop where
  trial : predicted.dryRun = true ∧ report.dryRun = false
  mode : predicted.mode = report.mode
  restore : predicted.restore = report.restore
  files : predicted.files = report.files.map FileRewrite.unwritten
  failures : predicted.failures = report.failures
  outcomes : predicted.outcomes = report.outcomes.map FileOutcome.unwritten
  totalFiles : predicted.totalFiles = report.totalFiles
  changedFiles : predicted.changedFiles = report.changedFiles
  totalReplacements : predicted.totalReplacements = report.totalReplacements
  unwritten : ∀ entry ∈ predicted.files, entry.written = false
  written : ∀ entry ∈ report.files,
    entry.written = true ↔ after.bytes entry.file ≠ world.bytes entry.file

theorem Report.changedFiles_of_files {predicted report : Report}
    (files : predicted.files = report.files.map FileRewrite.unwritten) :
    predicted.changedFiles = report.changedFiles := by
  rw [changedFiles, changedFiles, files, List.filter_map, List.length_map]
  rfl

theorem Report.totalReplacements_of_files {predicted report : Report}
    (files : predicted.files = report.files.map FileRewrite.unwritten) :
    predicted.totalReplacements = report.totalReplacements := by
  rw [totalReplacements, totalReplacements, files, List.foldr_map]
  rfl

theorem Report.Predicts.of_outcomes {predicted report : Report} {world after : World}
    (trial : predicted.dryRun = true ∧ report.dryRun = false) (mode : predicted.mode = report.mode)
    (restore : predicted.restore = report.restore)
    (outcomes : predicted.outcomes = report.outcomes.map FileOutcome.unwritten)
    (written : ∀ entry ∈ report.files,
      entry.written = true ↔ after.bytes entry.file ≠ world.bytes entry.file) :
    predicted.Predicts report world after := by
  have files : predicted.files = report.files.map FileRewrite.unwritten := by
    rw [Report.files, outcomes, filterMap_rewrite?_unwritten]
    rfl
  constructor
  · exact trial
  · exact mode
  · exact restore
  · exact files
  · rw [Report.failures, outcomes, filterMap_failure?_unwritten]
    rfl
  · exact outcomes
  · rw [Report.totalFiles, outcomes, List.length_map]
    rfl
  · exact Report.changedFiles_of_files files
  · exact Report.totalReplacements_of_files files
  · intro entry member
    rw [files] at member
    obtain ⟨other, -, rfl⟩ := List.mem_map.mp member
    rfl
  · exact written

/-! ## Trials leave everything as it is -/

/-- A trial only says where files would have been restored. -/
theorem RunOptions.performRestore_of_trial {options : RunOptions} (trial : options.dryRun = true)
    (restorer : Restorer) (world : World) :
    options.performRestore restorer world =
      (options.restore.map fun request =>
        { root := world.expand request.root, result := .skipped }, world) := by
  cases asked : options.restore with
  | none => simp only [performRestore, asked, Option.map_none]
  | some request =>
      simp only [performRestore, asked, RestoreRequest.perform, trial, if_true, Option.map_some]

namespace Config

variable {config : Config} {options : RunOptions}

theorem processFile_trial_world (file : Text) (world : World) :
    (config.processFile true file world).2 = world := by
  rw [processFile]
  split
  · rfl
  · simp only [Bool.not_true, Bool.and_false, Bool.false_eq_true, if_false]

theorem processFiles_trial_world (trial : options.dryRun = true) (files : List Text)
    (world : World) : (config.processFiles options files world).2 = world := by
  induction files with
  | nil => rfl
  | cons file files ih =>
      have same := config.processFile_trial_world file world
      rw [processFiles, trial]
      generalize config.processFile true file world = taken at same
      obtain ⟨result, next⟩ := taken
      subst same
      cases result with
      | ok entry => exact ih
      | error error =>
          dsimp only
          split
          · exact ih
          · rfl

theorem run_trial_world (trial : options.dryRun = true) (restorer : Restorer) (world : World) :
    (config.run options restorer world).2 = world := by
  rw [run, RunOptions.performRestore_of_trial trial]
  split
  · rfl
  · dsimp only
    split
    · rfl
    · exact processFiles_trial_world trial _ world

/-! ## Taking files in a trial -/

section Files

variable {file : Text} {files : List Text} {world : World} {number : Nat}

/-- A trial finds out what would become of a file that can be rewritten. -/
theorem processFile_trial_of_accepts (regular : world.fileNumber? file = some number)
    (accepts : config.Accepts (world.bytes file)) :
    ∃ entry, config.outcome file (world.bytes file) = .rewritten entry ∧
      config.processFile true file world = (.ok entry.unwritten, world) := by
  obtain ⟨text, rewrite, -, -, result⟩ := rewriteBytes_of_accepts file accepts
  refine ⟨_, by rw [outcome, result], ?_⟩
  simp only [processFile, plan_eq regular, result, Except.map, Bool.not_true, Bool.and_false,
    Bool.false_eq_true, if_false, FileRewrite.unwritten]

/-- A trial takes its files to the end if none of them has to end the run. -/
theorem processFiles_trial_eq_ok (trial : options.dryRun = true)
    (regular : ∀ file ∈ files, ∃ number, world.fileNumber? file = some number)
    (passes : ∀ file ∈ files, options.keepGoing = true ∨ config.Accepts (world.bytes file)) :
    config.processFiles options files world =
      (.ok (files.map fun file => (config.outcome file (world.bytes file)).unwritten), world) := by
  induction files with
  | nil => rfl
  | cons file files ih =>
      obtain ⟨number, found⟩ := regular file (by simp)
      have later := ih (fun other member => regular other (List.mem_cons_of_mem _ member))
        fun other member => passes other (List.mem_cons_of_mem _ member)
      by_cases accepts : config.Accepts (world.bytes file)
      · obtain ⟨entry, reported, processed⟩ := processFile_trial_of_accepts found accepts
        simp only [processFiles, trial, processed, later, Except.map, List.map_cons, reported,
          FileOutcome.unwritten]
      · have going : options.keepGoing = true := (passes file (by simp)).resolve_right accepts
        simp only [processFiles, trial, processFile_of_not_accepts found accepts, going, if_true,
          later, Except.map, List.map_cons, outcome_of_not_accepts accepts, FileOutcome.unwritten]

/-- A trial that may not pass over files ends with the first one that cannot be rewritten. -/
theorem processFiles_trial_eq_error (trial : options.dryRun = true)
    (stopping : options.keepGoing = false) {before later : List Text}
    (regular : ∀ other ∈ before ++ file :: later, ∃ number, world.fileNumber? other = some number)
    (accepted : ∀ earlier ∈ before, config.Accepts (world.bytes earlier))
    (refuses : ¬ config.Accepts (world.bytes file)) :
    config.processFiles options (before ++ file :: later) world =
      (.error (config.fault file (world.bytes file)), world) := by
  induction before with
  | nil =>
      obtain ⟨number, found⟩ := regular file (by simp)
      simp only [List.nil_append, processFiles, trial, processFile_of_not_accepts found refuses,
        stopping, Bool.false_eq_true, if_false]
  | cons first before ih =>
      obtain ⟨number, found⟩ := regular first (by simp)
      have rest := ih (fun other member => regular other (List.mem_cons_of_mem _ member))
        fun other member => accepted other (List.mem_cons_of_mem _ member)
      obtain ⟨entry, -, processed⟩ := processFile_trial_of_accepts found (accepted first (by simp))
      simp only [List.cons_append, processFiles, trial, processed, rest, Except.map]

theorem written_iff_newBytes_ne {bytes : ByteArray} {entry : FileRewrite}
    (reported : config.outcome file bytes = .rewritten entry) :
    entry.file = file ∧ (entry.written = true ↔ config.newBytes file bytes ≠ bytes) := by
  by_cases accepts : config.Accepts bytes
  · obtain ⟨text, rewrite, decoded, -, result⟩ := rewriteBytes_of_accepts file accepts
    rw [outcome, result] at reported
    cases reported
    refine ⟨rfl, ?_⟩
    rw [newBytes, result, decide_eq_true_iff, not_iff_not]
    constructor
    · exact Text.encode_of_decode?
    · intro same
      rw [← same]
      exact Text.decode?_encode rewrite.content
  · rw [outcome_of_not_accepts accepts] at reported
    cases reported

/-- The outcomes of a trial predict those of a run that has the effect on its files that it ought
to have. -/
theorem Effect.predicts {after : World} (effect : config.Effect files world after) (mode : Mode)
    (restore : Option RestoreOutcome) :
    Report.Predicts
      { mode, dryRun := true, restore
        outcomes := files.map fun file => (config.outcome file (world.bytes file)).unwritten }
      { mode, dryRun := false, restore
        outcomes := files.map fun file => config.outcome file (world.bytes file) } world after := by
  apply Report.Predicts.of_outcomes
  · exact ⟨rfl, rfl⟩
  · rfl
  · rfl
  · rw [List.map_map]
    rfl
  · intro entry member
    obtain ⟨_, reported, rewritten⟩ := List.mem_filterMap.mp member
    obtain ⟨file, fileMember, rfl⟩ := List.mem_map.mp reported
    cases taken : config.outcome file (world.bytes file) with
    | failed failure =>
        rw [taken] at rewritten
        cases rewritten
    | rewritten found =>
        rw [taken] at rewritten
        cases rewritten
        obtain ⟨rfl, written⟩ := written_iff_newBytes_ne taken
        rw [written, effect.taken _ fileMember]

end Files

/-! ## A trial and a run in earnest -/

/-- What a trial does, and what it tells.  It leaves everything as it is, and does not look at its
restorer.  If the selected paths lead to different files, and files that can be read can be
written, then the run in earnest, from the same surroundings and without a restoration, ends with
the same error as the trial, or it has the report that the trial predicts. -/
theorem run_trial (config : Config) (world : World) :
    (∀ options restorer, options.dryRun = true →
      (config.run options restorer world).2 = world ∧
        ∀ other, config.run options other world = config.run options restorer world) ∧
    ((∀ files, config.select world = .ok files → (files.map world.fileNumber?).Nodup ∧
        ∀ file ∈ files, (∃ text, world.content file = .ok text) → world.CanWrite file) →
      ∀ keepGoing restorer other,
        (∃ error after,
          config.run { dryRun := true, keepGoing } restorer world = (.error error, world) ∧
            config.run { keepGoing } other world = (.error error, after)) ∨
        ∃ predicted report after,
          config.run { dryRun := true, keepGoing } restorer world = (.ok predicted, world) ∧
            config.run { keepGoing } other world = (.ok report, after) ∧
            predicted.Predicts report world after) := by
  constructor
  · intro options restorer trial
    refine ⟨run_trial_world trial restorer world, fun other => ?_⟩
    rw [run, run, RunOptions.performRestore_of_trial trial,
      RunOptions.performRestore_of_trial trial]
  intro fit keepGoing restorer other
  cases valid : config.validate with
  | error error => exact .inl ⟨error, world, by simp only [run, valid], by simp only [run, valid]⟩
  | ok _ =>
  cases selected : config.select world with
  | error error =>
      left
      refine ⟨error, world, ?_, ?_⟩
      · exact config.run_of_select_eq_error { dryRun := true, keepGoing } restorer world valid
          selected
      · exact config.run_of_select_eq_error { keepGoing } other world valid selected
  | ok files =>
      have ready := Ready.of_select selected (fit files selected).1 (fit files selected).2
      have real : RunOptions.dryRun { keepGoing } = false := rfl
      have trial : RunOptions.dryRun { dryRun := true, keepGoing } = true := rfl
      rw [run_eq_processFiles restorer valid rfl selected,
        run_eq_processFiles other valid rfl selected]
      by_cases passes : keepGoing = true ∨ ∀ file ∈ files, config.Accepts (world.bytes file)
      · have allPass (file : Text) (member : file ∈ files) :
            keepGoing = true ∨ config.Accepts (world.bytes file) :=
          passes.imp_right fun accepted => accepted file member
        obtain ⟨after, processed, effect⟩ := processFiles_eq_ok real ready allPass
        rw [processed, processFiles_trial_eq_ok trial ready.regular allPass]
        exact .inr ⟨_, _, after, rfl, rfl, effect.predicts config.mode none⟩
      · simp only [not_or, Bool.not_eq_true] at passes
        obtain ⟨before, file, later, rfl, accepted, refuses⟩ := exists_first_not passes.2
        obtain ⟨after, processed, -⟩ :=
          processFiles_eq_error real passes.1 ready accepted refuses
        rw [processed,
          processFiles_trial_eq_error trial passes.1 ready.regular accepted refuses]
        exact .inl ⟨_, after, rfl, rfl⟩

/-- A trial predicts that the first file is rewritten and the second one is passed over. -/
theorem run_trial_twoFiles :
    ∃ predicted report after,
      (unfiltered [['s']] .lexical).run { dryRun := true, keepGoing := true } .none twoFiles =
          (.ok predicted, twoFiles) ∧
        (unfiltered [['s']] .lexical).run { keepGoing := true } .none twoFiles =
          (.ok report, after) ∧
        predicted.Predicts report twoFiles after := by
  have selected : (unfiltered [['s']] .lexical).select twoFiles =
      .ok [['s', '/', 'a', '.', 'h'], ['s', '/', 'b', '.', 'h']] := by
    cbv
  have first : twoFiles.fileNumber? ['s', '/', 'a', '.', 'h'] = some 0 := by cbv
  have second : twoFiles.fileNumber? ['s', '/', 'b', '.', 'h'] = some 1 := by cbv
  have fit : ∀ files, (unfiltered [['s']] .lexical).select twoFiles = .ok files →
      (files.map twoFiles.fileNumber?).Nodup ∧
        ∀ file ∈ files, (∃ text, twoFiles.content file = .ok text) → twoFiles.CanWrite file := by
    intro files same
    rw [selected] at same
    cases same
    constructor
    · rw [List.map_cons, List.map_cons, first, second]
      decide
    · intro file member _
      simp only [List.mem_cons, List.not_mem_nil, or_false] at member
      rcases member with rfl | rfl
      · exact ⟨[['s'], ['a', '.', 'h']], by cbv⟩
      · exact ⟨[['s'], ['b', '.', 'h']], by cbv⟩
  obtain ⟨report, last, succeeded⟩ := run_of_keepGoing .none (validate_unfiltered [['s']] .lexical)
    (rfl : RunOptions.restore { keepGoing := true } = none) rfl selected
  rcases (run_trial (unfiltered [['s']] .lexical) twoFiles).2 fit true .none .none with
    ⟨error, after, -, failed⟩ | predicts
  · rw [succeeded] at failed
    cases failed
  · exact predicts

end Config

end Recase
