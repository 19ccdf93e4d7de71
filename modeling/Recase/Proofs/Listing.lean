import Recase.Command
import Recase.Proofs.RestoredRuns
import Mathlib

/-!
# Listings and runs

A listing names the files that a renaming with the same arguments takes.  The report of the renaming
tells of these files and of no others: each place in the listing is either an entry or a failure of
the report, and both stand in the order of the listing.
-/

namespace Recase

/-! ## Interleavings -/

/-- A list is an interleaving of two others if it holds the items of both, each of them in their
order, and nothing else. -/
inductive Interleaves {α : Type} : List α → List α → List α → Prop where
  | nil : Interleaves [] [] []
  | left {left right whole : List α} (item : α) (behind : Interleaves left right whole) :
      Interleaves (item :: left) right (item :: whole)
  | right {left right whole : List α} (item : α) (behind : Interleaves left right whole) :
      Interleaves left (item :: right) (item :: whole)

theorem Interleaves.length {α : Type} {left right whole : List α}
    (interleaves : Interleaves left right whole) :
    whole.length = left.length + right.length := by
  induction interleaves with
  | nil => rfl
  | left item behind ih =>
      rw [List.length_cons, List.length_cons, ih]
      omega
  | right item behind ih =>
      rw [List.length_cons, List.length_cons, ih]
      omega

/-! ## Reports -/

theorem Json.texts_injective : Function.Injective texts := by
  intro left right same
  have alike : left.map text = right.map text := Json.array.inj same
  exact List.map_injective_iff.mpr (fun _ _ spelt => Option.some.inj (Json.string.inj spelt)) alike

/-- A report accounts for the files of a listing: they are the files with an entry and those that
were passed over, each of them counted once, and none was passed over unless this was asked for. -/
structure Report.AccountsFor (report : Report) (listed : List Text) (keepGoing : Bool) : Prop where
  files : Interleaves (report.files.map FileRewrite.file)
    (report.failures.map FileFailure.file) listed
  total : report.totalFiles = listed.length ∧
    listed.length = report.files.length + report.failures.length
  replacements : report.totalReplacements = (report.files.map FileRewrite.replacements).sum
  failures : keepGoing = false → report.failures = []

theorem FileOutcome.interleaves (outcomes : List FileOutcome) :
    Interleaves ((outcomes.filterMap rewrite?).map FileRewrite.file)
      ((outcomes.filterMap failure?).map FileFailure.file) (outcomes.map file) := by
  induction outcomes with
  | nil => exact .nil
  | cons outcome outcomes ih =>
      cases outcome with
      | rewritten rewrite => exact .left rewrite.file ih
      | failed failure => exact .right failure.file ih

theorem Report.totalReplacements_eq_sum (report : Report) :
    report.totalReplacements = (report.files.map FileRewrite.replacements).sum := by
  rw [totalReplacements, List.sum, List.foldr_map]

theorem Report.totals_toJson (report : Report) :
    report.toJson.member? "total_files".toList = some (.nat report.totalFiles) ∧
      report.toJson.member? "total_replacements".toList =
        some (.nat report.totalReplacements) := by
  rw [toJson, Json.member?_record, Json.member?_record, List.append_assoc, Index.find_append,
    Index.find_append]
  exact ⟨rfl, rfl⟩

namespace Config

variable {config : Config} {options : RunOptions}

theorem map_file_of_processFiles {files : List Text} {world after : World}
    {outcomes : List FileOutcome}
    (processed : config.processFiles options files world = (.ok outcomes, after)) :
    outcomes.map FileOutcome.file = files := by
  induction files generalizing world outcomes with
  | nil =>
      cases processed
      rfl
  | cons file files ih =>
      obtain ⟨outcome, others, next, rfl, later, step⟩ := processFiles_cons_eq_ok processed
      rw [List.map_cons, ih later]
      rcases step with ⟨entry, first, rfl⟩ | ⟨error, -, -, rfl⟩
      · obtain ⟨content, rewrite, written, -, -, rfl⟩ := exists_rewrite_of_processFile first
        rfl
      · rfl

/-- A run that does not keep going passes over no file. -/
theorem failures_of_processFiles (stopping : options.keepGoing = false) {files : List Text}
    {world after : World} {outcomes : List FileOutcome}
    (processed : config.processFiles options files world = (.ok outcomes, after)) :
    outcomes.filterMap FileOutcome.failure? = [] := by
  induction files generalizing world outcomes with
  | nil =>
      cases processed
      rfl
  | cons file files ih =>
      obtain ⟨outcome, others, next, rfl, later, step⟩ := processFiles_cons_eq_ok processed
      have behind := ih later
      rcases step with ⟨entry, -, rfl⟩ | ⟨error, going, -, -⟩
      · exact behind
      · rw [stopping] at going
        cases going

/-- The report of a run that restores nothing accounts for the selected files. -/
theorem accountsFor_of_run {restorer : Restorer} {world after : World} {files : List Text}
    {report : Report} (unasked : options.restore = none)
    (selected : config.select world = .ok files)
    (ran : config.run options restorer world = (.ok report, after)) :
    report.AccountsFor files options.keepGoing := by
  obtain ⟨valid, -⟩ := run_eq_ok ran
  rw [run_eq_processFiles restorer valid unasked selected] at ran
  cases processed : config.processFiles options files world with
  | mk outcomes last =>
      rw [processed] at ran
      cases outcomes with
      | error error => cases ran
      | ok outcomes =>
          cases ran
          have listed := map_file_of_processFiles processed
          have interleaves := FileOutcome.interleaves outcomes
          rw [listed] at interleaves
          have counted := interleaves.length
          rw [List.length_map, List.length_map] at counted
          have total : outcomes.length = files.length := by rw [← listed, List.length_map]
          exact ⟨interleaves, ⟨total, counted⟩, Report.totalReplacements_eq_sum _,
            fun stopping => failures_of_processFiles stopping processed⟩

end Config

/-! ## Commands -/

theorem exists_of_bind_eq_ok {ε α β : Type} {first : Except ε α} {next : α → Except ε β}
    {result : β} (succeeded : first >>= next = .ok result) :
    ∃ value, first = .ok value ∧ next value = .ok result := by
  cases first with
  | error fault => cases succeeded
  | ok value => exact ⟨value, rfl, succeeded⟩

namespace ConfigArguments

variable {arguments : ConfigArguments} {paths : List Text} {world : World} {config : Config}

/-- The mode that arguments ask for, or else that of the configuration that they start from. -/
def modeFrom (arguments : ConfigArguments) (base : Config) : Except Error Mode :=
  match arguments.mode with
  | some name => Mode.ofArgument name
  | none => .ok base.mode

/-- What arguments make of the configuration that they start from. -/
def applyTo (arguments : ConfigArguments) (paths : List Text) (base : Config) (mode : Mode) : Config :=
  { base with
    paths := if paths.isEmpty then base.paths else paths
    suffixes := if arguments.suffixes.isEmpty then base.suffixes else arguments.suffixes
    ignored := base.ignored.extend arguments.ignore
    mode
    camelCase := base.camelCase && !arguments.markOnly }

/-- Arguments make up a configuration from a file, a mode and settings that are accepted. -/
theorem resolve_eq_ok_iff : arguments.resolve paths world = .ok config ↔
    ∃ base mode, arguments.base world = .ok base ∧ arguments.modeFrom base = .ok mode ∧
      config = arguments.applyTo paths base mode ∧ config.validate = .ok () := by
  have steps : arguments.resolve paths world = (do
      let base ← arguments.base world
      let mode ← arguments.modeFrom base
      (arguments.applyTo paths base mode).validate
      pure (arguments.applyTo paths base mode)) := by
    apply bind_congr
    intro base
    rw [modeFrom]
    cases arguments.mode with
    | none => rfl
    | some name => rfl
  rw [steps]
  constructor
  · intro resolved
    obtain ⟨base, based, resolved⟩ := exists_of_bind_eq_ok resolved
    obtain ⟨mode, chosen, resolved⟩ := exists_of_bind_eq_ok resolved
    obtain ⟨_, valid, resolved⟩ := exists_of_bind_eq_ok resolved
    cases resolved
    exact ⟨base, mode, based, chosen, rfl, valid⟩
  · rintro ⟨base, mode, based, chosen, rfl, valid⟩
    simp only [based, chosen, valid, bind, Except.bind, pure, Except.pure]

theorem validate_of_resolve (resolved : arguments.resolve paths world = .ok config) :
    config.validate = .ok () := by
  obtain ⟨-, -, -, -, -, valid⟩ := resolve_eq_ok_iff.mp resolved
  exact valid

end ConfigArguments

namespace Command

variable {paths : List Text} {arguments : ConfigArguments} {options : RunOptions} {world : World}

theorem executeRename_of_resolve {config : Config}
    (resolved : arguments.resolve paths world = .ok config) :
    executeRename paths arguments options world = config.run options
      (if options.restore.isSome then Restorer.versionControl else Restorer.none) world := by
  rw [executeRename, resolved]

/-- A renaming without a restoration fails before it takes any file if the files cannot be
listed. -/
theorem executeRename_of_executeFiles_eq_error {error : Error}
    (failed : executeFiles paths arguments world = .error error)
    (unasked : options.restore = none) :
    executeRename paths arguments options world = (.error error, world) := by
  rw [executeFiles] at failed
  cases resolved : arguments.resolve paths world with
  | error fault =>
      rw [resolved] at failed
      cases failed
      rw [executeRename, resolved]
  | ok config =>
      rw [resolved] at failed
      rw [executeRename_of_resolve resolved]
      have valid := ConfigArguments.validate_of_resolve resolved
      cases selected : config.select world with
      | error fault =>
          simp only [selected, bind, Except.bind] at failed
          cases failed
          simp only [Config.run, valid, RunOptions.performRestore, unasked, selected]
      | ok files =>
          simp only [selected, bind, Except.bind] at failed
          cases failed

/-- A renaming without a restoration takes the files that are listed. -/
theorem accountsFor_of_executeFiles {config : Config} {listed : List Text}
    (listing : executeFiles paths arguments world = .ok (config, listed))
    (unasked : options.restore = none) {report : Report} {after : World}
    (ran : executeRename paths arguments options world = (.ok report, after)) :
    report.AccountsFor listed options.keepGoing := by
  obtain ⟨found, resolved, listing⟩ := exists_of_bind_eq_ok listing
  obtain ⟨files, selected, listing⟩ := exists_of_bind_eq_ok listing
  cases listing
  rw [executeRename_of_resolve resolved] at ran
  exact Config.accountsFor_of_run unasked selected ran

theorem execute_rename_of_ok {report : Report} {after : World}
    (ran : executeRename paths arguments options world = (.ok report, after)) :
    (rename paths arguments options).execute world =
      (.success report.toJson (statusOf report), after) := by
  simp only [execute, ran]
  rfl

theorem files_listing (config : Config) (listed : List Text) :
    (listing config listed).member? "files".toList = some (.texts listed) ∧
      (listing config listed).member? "total_files".toList = some (.nat listed.length) := by
  rw [listing, Json.member?_record, Json.member?_record]
  exact ⟨rfl, rfl⟩

/-- A listing names the files that a renaming with the same arguments and without a restoration
takes.  If there is no listing, the renaming fails with the same error and does nothing.  Otherwise
the report of a renaming that succeeds accounts for the listed files. -/
theorem files_accounted_for (paths : List Text) (arguments : ConfigArguments)
    (options : RunOptions) (unasked : options.restore = none) (world : World) :
    (∀ error after, (files paths arguments).execute world = (.failure error, after) →
      (rename paths arguments options).execute world = (.failure error, world)) ∧
    ∀ list status after, (files paths arguments).execute world = (.success list status, after) →
      after = world ∧ ∃ listed, list.member? "files".toList = some (.texts listed) ∧
        list.member? "total_files".toList = some (.nat listed.length) ∧
        ∀ data status after,
          (rename paths arguments options).execute world = (.success data status, after) →
            ∃ report : Report, data = report.toJson ∧
              report.AccountsFor listed options.keepGoing ∧
              data.member? "total_files".toList = some (.nat listed.length) ∧
              data.member? "total_replacements".toList =
                some (.nat (report.files.map FileRewrite.replacements).sum) := by
  simp only [execute]
  cases listing : executeFiles paths arguments world with
  | error fault =>
      rw [executeRename_of_executeFiles_eq_error listing unasked]
      constructor
      · intro error after ended
        cases ended
        rfl
      · intro list status after ended
        cases ended
  | ok found =>
      obtain ⟨config, listed⟩ := found
      constructor
      · intro error after ended
        cases ended
      · intro list status after ended
        cases ended
        obtain ⟨named, counted⟩ := files_listing config listed
        refine ⟨rfl, listed, named, counted, ?_⟩
        intro data status after ended
        cases ran : executeRename paths arguments options world with
        | mk result last =>
            rw [ran] at ended
            cases result with
            | error fault => cases ended
            | ok report =>
                cases ended
                have accounts := accountsFor_of_executeFiles listing unasked ran
                obtain ⟨files, replacements⟩ := report.totals_toJson
                rw [accounts.total.1] at files
                rw [accounts.replacements] at replacements
                exact ⟨report, rfl, accounts, files, replacements⟩

/-- Without a file, and with no arguments but source directories, all other settings have their
defaults. -/
theorem resolve_of_paths {paths : List Text} (nonempty : paths.isEmpty = false) (world : World) :
    ConfigArguments.resolve {} paths world = .ok { Config.default with paths } := by
  have valid : Config.validate { Config.default with paths } = .ok () :=
    Config.validate_eq_ok rfl (by decide : Config.isMarker ['m'] = true)
      (by decide : Config.isMarker ['a'] = true) (by decide : Config.isPlaceholder '§' = true)
      rfl rfl
  have chosen : { Config.default with paths } =
      ConfigArguments.applyTo {} paths Config.default .lexical := by
    rw [ConfigArguments.applyTo, nonempty]
    rfl
  exact ConfigArguments.resolve_eq_ok_iff.mpr ⟨_, _, rfl, rfl, chosen, valid⟩

/-- The renaming accounts for the two files that are listed.  Both commands fail if the mode is
unknown. -/
theorem files_accounted_for_twoFiles :
    (∃ list data status after, (files [['s']] {}).execute Config.twoFiles =
        (.success list 0, Config.twoFiles) ∧
      list.member? "files".toList =
        some (.texts [['s', '/', 'a', '.', 'h'], ['s', '/', 'b', '.', 'h']]) ∧
      (rename [['s']] {} { keepGoing := true }).execute Config.twoFiles =
        (.success data status, after) ∧
      ∃ report : Report, data = report.toJson ∧
        report.AccountsFor [['s', '/', 'a', '.', 'h'], ['s', '/', 'b', '.', 'h']] true) ∧
    ∃ error, (files [['s']] { mode := some ['x'] }).execute Config.twoFiles =
        (.failure error, Config.twoFiles) ∧
      (rename [['s']] { mode := some ['x'] } { keepGoing := true }).execute Config.twoFiles =
        (.failure error, Config.twoFiles) := by
  have unasked : RunOptions.restore { keepGoing := true } = none := rfl
  obtain ⟨-, succeeds⟩ := files_accounted_for [['s']] {} { keepGoing := true } unasked
    Config.twoFiles
  obtain ⟨fails, -⟩ := files_accounted_for [['s']] { mode := some ['x'] } { keepGoing := true }
    unasked Config.twoFiles
  constructor
  · have selected : (Config.unfiltered [['s']] .lexical).select Config.twoFiles =
        .ok [['s', '/', 'a', '.', 'h'], ['s', '/', 'b', '.', 'h']] := by
      cbv
    have resolved := resolve_of_paths (rfl : List.isEmpty [['s']] = false) Config.twoFiles
    have valid := ConfigArguments.validate_of_resolve resolved
    have listed : executeFiles [['s']] {} Config.twoFiles =
        .ok ({ Config.default with paths := [['s']] },
          [['s', '/', 'a', '.', 'h'], ['s', '/', 'b', '.', 'h']]) := by
      rw [executeFiles, resolved]
      exact congrArg (Except.map fun listed => (_, listed)) selected
    obtain ⟨report, after, ran⟩ := Config.run_of_keepGoing .none valid unasked rfl selected
    have renamed : executeRename [['s']] {} { keepGoing := true } Config.twoFiles =
        (.ok report, after) := by
      rw [executeRename_of_resolve resolved]
      exact ran
    have listing : (files [['s']] {}).execute Config.twoFiles =
        (.success (listing { Config.default with paths := [['s']] }
          [['s', '/', 'a', '.', 'h'], ['s', '/', 'b', '.', 'h']]) 0, Config.twoFiles) := by
      simp only [execute, listed]
      rfl
    have ended := execute_rename_of_ok renamed
    obtain ⟨-, names, named, -, accounts⟩ := succeeds _ _ _ listing
    obtain ⟨other, same, accounted, -⟩ := accounts _ _ _ ended
    obtain ⟨known, -⟩ := files_listing { Config.default with paths := [['s']] }
      [['s', '/', 'a', '.', 'h'], ['s', '/', 'b', '.', 'h']]
    obtain rfl := Json.texts_injective (Option.some.inj (named.symm.trans known))
    exact ⟨_, _, _, _, listing, known, ended, other, same, accounted⟩
  · have listing : (files [['s']] { mode := some ['x'] }).execute Config.twoFiles =
        (.failure _, Config.twoFiles) := rfl
    exact ⟨_, listing, fails _ _ listing⟩

end Command

end Recase
