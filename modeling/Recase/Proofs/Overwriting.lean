import Recase.Proofs.Changes
import Recase.Proofs.Effect
import Mathlib

/-!
# Overwritten files

A file is written if and only if its text changes, and its text changes if and only if a name is
replaced.  So the entries of a report tell which files were overwritten, and the files that a
report counts as changed are those that were written.
-/

namespace Recase

namespace Config

variable {config : Config}

/-! ## One text -/

theorem rewrite_eq_ok {content : Text} {rewrite : Rewrite}
    (rewritten : config.rewrite content = .ok rewrite) :
    config.placeholder ∉ content ∧
      rewrite = { config.rewriteBy config.mode.parts (config.conceal content) with
        content := config.restore
          (config.rewriteParts (config.mode.parts (config.conceal content))) } := by
  obtain ⟨text, concealed, result⟩ := rewriteContentBy_eq_ok rewritten
  obtain ⟨absent, rfl⟩ := Guard.protect_eq_ok_iff.mp concealed
  exact ⟨absent, result⟩

theorem renames_ne_empty_iff {content : Text} {rewrite : Rewrite}
    (rewritten : config.rewrite content = .ok rewrite) :
    rewrite.renames ≠ .empty ↔ 0 < rewrite.replacements := by
  obtain ⟨-, rfl⟩ := rewrite_eq_ok rewritten
  change Index.ofList _ ≠ .empty ↔ 0 < List.length _
  rw [ne_eq, Index.ofList_eq_empty_iff, List.length_pos_iff]

theorem content_ne_iff (valid : config.validate = .ok ()) {content : Text} {rewrite : Rewrite}
    (rewritten : config.rewrite content = .ok rewrite) :
    rewrite.content ≠ content ↔ 0 < rewrite.replacements := by
  obtain ⟨placeholder, nonempty, unmarked⟩ := guard_of_validate valid
  have noWord := isWord_eq_false_of_isPlaceholder placeholder
  obtain ⟨absent, rfl⟩ := rewrite_eq_ok rewritten
  change config.restore (config.rewriteParts (config.mode.parts (config.conceal content))) ≠
      content ↔ 0 < (config.changes (config.mode.parts (config.conceal content))).length
  have joined := Mode.join_parts config.mode (config.conceal content)
  have restored := config.restore_conceal absent
  rw [List.length_pos_iff]
  constructor
  · intro different unchanged
    apply different
    rw [Convention.rewriteParts_of_changes unchanged, joined, restored]
  · intro changed same
    refine restore_rewriteParts_ne noWord nonempty (fun _ => Mode.isWord_of_isWord)
      config.mode.isWord_underscore (config.mode.bounded_parts _) ?_ changed ?_
    · intro length uniform
      rw [joined]
      exact Guard.not_infix_conceal_of_replicate uniform absent
    · rw [joined, restored]
      exact same

/-! ## One file -/

end Config

/-- What is reported of a file that a rewriting is for. -/
def Rewrite.entry (rewrite : Rewrite) (file : Text) (written : Bool) : FileRewrite where
  file := file
  replacements := rewrite.replacements
  renames := rewrite.renames
  written := written

namespace Config

variable {config : Config}

/-- What a run that is no trial does to the files, told by the entries of its report: a file whose
entry has renames is overwritten with what its text is rewritten to, which is another text, and any
other file is left alone. -/
inductive Overwrites (config : Config) : World → List FileRewrite → World → Prop where
  | done (world : World) : Overwrites config world [] world
  | overwritten {world next after : World} {file text : Text} {rewrite : Rewrite}
      {entries : List FileRewrite} (read : world.content file = .ok text)
      (rewritten : config.rewrite text = .ok rewrite) (named : rewrite.renames ≠ .empty)
      (changed : rewrite.content ≠ text) (stored : world.store file rewrite.content = .ok next)
      (behind : Overwrites config next entries after) :
      Overwrites config world
        (rewrite.entry file true :: entries) after
  | kept {world after : World} {file text : Text} {rewrite : Rewrite}
      {entries : List FileRewrite} (read : world.content file = .ok text)
      (rewritten : config.rewrite text = .ok rewrite) (unnamed : rewrite.renames = .empty)
      (same : rewrite.content = text) (behind : Overwrites config world entries after) :
      Overwrites config world
        (rewrite.entry file false :: entries) after

section File

variable {world after : World} {file : Text}

theorem exists_of_plan_eq_ok {rewrite : Rewrite} {changed : Bool}
    (planned : config.plan file world = .ok (rewrite, changed)) :
    ∃ text, world.content file = .ok text ∧ config.rewrite text = .ok rewrite ∧
      (changed = true ↔ rewrite.content ≠ text) := by
  rw [plan, World.read] at planned
  cases content : world.content file with
  | error error =>
      rw [content] at planned
      cases planned
  | ok text =>
      rw [content] at planned
      cases rewritten : config.rewrite text with
      | error error =>
          simp only [Except.mapError, bind, Except.bind, rewritten] at planned
          cases planned
      | ok found =>
          simp only [Except.mapError, bind, Except.bind, rewritten, pure, Except.pure,
            Except.ok.injEq, Prod.mk.injEq] at planned
          obtain ⟨rfl, rfl⟩ := planned
          exact ⟨text, rfl, rewritten, decide_eq_true_iff⟩

theorem processFile_eq_error {error : Error} {dryRun : Bool}
    (processed : config.processFile dryRun file world = (.error error, after)) : after = world := by
  rw [processFile] at processed
  split at processed
  · exact (Prod.mk.inj processed).2.symm
  · next rewrite changed planned =>
      dsimp only at processed
      split at processed
      · rw [World.write] at processed
        cases stored : world.store file rewrite.content with
        | ok next =>
            rw [stored] at processed
            cases processed
        | error fault =>
            rw [stored] at processed
            exact (Prod.mk.inj processed).2.symm
      · cases processed

/-- The entry of a file that is taken tells what its content is rewritten to. -/
theorem exists_rewrite_of_processFile {dryRun : Bool} {entry : FileRewrite}
    (processed : config.processFile dryRun file world = (.ok entry, after)) :
    ∃ text rewrite written, world.content file = .ok text ∧ config.rewrite text = .ok rewrite ∧
      entry = rewrite.entry file written := by
  rw [processFile] at processed
  split at processed
  · cases processed
  · next rewrite changed planned =>
      obtain ⟨text, content, rewritten, -⟩ := exists_of_plan_eq_ok planned
      refine ⟨text, rewrite, ?_⟩
      dsimp only at processed
      split at processed
      · split at processed
        · cases processed
          exact ⟨true, content, rewritten, rfl⟩
        · cases processed
      · cases processed
        exact ⟨false, content, rewritten, rfl⟩

theorem processFile_eq_ok {entry : FileRewrite}
    (processed : config.processFile false file world = (.ok entry, after)) :
    ∃ text rewrite, world.content file = .ok text ∧ config.rewrite text = .ok rewrite ∧
      ((rewrite.content ≠ text ∧ world.store file rewrite.content = .ok after ∧
          entry = rewrite.entry file true) ∨
        (rewrite.content = text ∧ after = world ∧
          entry = rewrite.entry file false)) := by
  rw [processFile] at processed
  split at processed
  · cases processed
  · next rewrite changed planned =>
      obtain ⟨text, content, rewritten, changedIff⟩ := exists_of_plan_eq_ok planned
      refine ⟨text, rewrite, content, rewritten, ?_⟩
      cases changed with
      | true =>
          left
          simp only [Bool.not_false, Bool.and_self, if_true, World.write] at processed
          cases stored : world.store file rewrite.content with
          | ok next =>
              rw [stored] at processed
              obtain ⟨reported, rfl⟩ := Prod.mk.inj processed
              exact ⟨changedIff.mp rfl, rfl, (Except.ok.inj reported).symm⟩
          | error fault =>
              rw [stored] at processed
              cases processed
      | false =>
          right
          have same : rewrite.content = text := by
            apply Classical.byContradiction
            intro different
            exact absurd (changedIff.mpr different) (by decide)
          simp only [Bool.false_and, Bool.false_eq_true, if_false] at processed
          obtain ⟨reported, rfl⟩ := Prod.mk.inj processed
          exact ⟨same, rfl, (Except.ok.inj reported).symm⟩

theorem Overwrites.cons (valid : config.validate = .ok ()) {entry : FileRewrite} {last : World}
    {entries : List FileRewrite}
    (processed : config.processFile false file world = (.ok entry, after))
    (behind : Overwrites config after entries last) :
    Overwrites config world (entry :: entries) last := by
  obtain ⟨text, rewrite, content, rewritten, overwritten | kept⟩ := processFile_eq_ok processed
  · obtain ⟨changed, stored, rfl⟩ := overwritten
    have replaced := (content_ne_iff valid rewritten).mp changed
    have named := (renames_ne_empty_iff rewritten).mpr replaced
    exact .overwritten content rewritten named changed stored behind
  · obtain ⟨same, rfl, rfl⟩ := kept
    have unnamed : rewrite.renames = .empty := by
      apply Classical.byContradiction
      intro named
      have replaced := (renames_ne_empty_iff rewritten).mp named
      exact (content_ne_iff valid rewritten).mpr replaced same
    exact .kept content rewritten unnamed same behind

end File

/-! ## A whole run -/

/-- A run that takes all of its files has taken the first one, or passed over it, and gone on with
the others from the surroundings that this left. -/
theorem processFiles_cons_eq_ok {options : RunOptions} {file : Text} {files : List Text}
    {world after : World} {outcomes : List FileOutcome}
    (processed : config.processFiles options (file :: files) world = (.ok outcomes, after)) :
    ∃ outcome others next, outcomes = outcome :: others ∧
      config.processFiles options files next = (.ok others, after) ∧
      ((∃ entry, config.processFile options.dryRun file world = (.ok entry, next) ∧
          outcome = .rewritten entry) ∨
        ∃ error, options.keepGoing = true ∧
          config.processFile options.dryRun file world = (.error error, next) ∧
          outcome = .failed { file, error }) := by
  rw [processFiles] at processed
  cases first : config.processFile options.dryRun file world with
  | mk result next =>
      rw [first] at processed
      cases later : config.processFiles options files next with
      | mk others last =>
          cases result with
          | ok entry =>
              simp only [later] at processed
              cases others with
              | error error => cases processed
              | ok others =>
                  cases processed
                  exact ⟨_, others, next, rfl, later, .inl ⟨entry, rfl, rfl⟩⟩
          | error error =>
              simp only [later] at processed
              split at processed
              · next going =>
                  cases others with
                  | error error => cases processed
                  | ok others =>
                      cases processed
                      exact ⟨_, others, next, rfl, later, .inr ⟨error, going, rfl, rfl⟩⟩
              · cases processed

/-- The files that a run takes are overwritten or left alone one after the other. -/
theorem overwrites_processFiles (valid : config.validate = .ok ()) {options : RunOptions}
    (real : options.dryRun = false) {files : List Text} {world after : World}
    {outcomes : List FileOutcome}
    (processed : config.processFiles options files world = (.ok outcomes, after)) :
    Overwrites config world (outcomes.filterMap FileOutcome.rewrite?) after := by
  induction files generalizing world outcomes with
  | nil =>
      cases processed
      exact .done _
  | cons file files ih =>
      obtain ⟨outcome, others, next, rfl, later, step⟩ := processFiles_cons_eq_ok processed
      have behind := ih later
      rw [real] at step
      rcases step with ⟨entry, first, rfl⟩ | ⟨error, -, first, rfl⟩
      · exact .cons valid first behind
      · obtain rfl := processFile_eq_error first
        exact behind

/-- An entry counts replacements, and has renames, if and only if the file was written. -/
theorem Overwrites.written_iff {world after : World} {entries : List FileRewrite}
    (overwrites : Overwrites config world entries after) :
    ∀ entry ∈ entries, (entry.written = true ↔ entry.renames ≠ .empty) ∧
      (entry.written = true ↔ 0 < entry.replacements) := by
  induction overwrites with
  | done world =>
      intro entry member
      cases member
  | overwritten read rewritten named changed stored behind ih =>
      intro entry member
      rcases List.mem_cons.mp member with rfl | later
      · have replaced := (renames_ne_empty_iff rewritten).mp named
        simp [Rewrite.entry, named, replaced]
      · exact ih entry later
  | kept read rewritten unnamed same behind ih =>
      intro entry member
      rcases List.mem_cons.mp member with rfl | later
      · have none := (renames_ne_empty_iff rewritten).not.mp (by simp [unnamed])
        simp [Rewrite.entry, unnamed, none]
      · exact ih entry later

theorem exists_files_of_run {options : RunOptions} {restorer : Restorer} {world after : World}
    {report : Report} (ran : config.run options restorer world = (.ok report, after)) :
    config.validate = .ok () ∧ report.restore = (options.performRestore restorer world).1 ∧
      ∃ files, config.processFiles options files
        (options.performRestore restorer world).2 = (.ok report.outcomes, after) := by
  rw [run] at ran
  split at ran
  · cases ran
  · next valid =>
      refine ⟨valid, ?_⟩
      dsimp only at ran
      split at ran
      · cases ran
      · next files selected =>
          cases processed : config.processFiles options files
              (options.performRestore restorer world).2 with
          | mk outcomes last =>
              rw [processed] at ran
              cases outcomes with
              | error error => cases ran
              | ok outcomes =>
                  cases ran
                  exact ⟨rfl, files, processed⟩

theorem run_eq_ok {options : RunOptions} {restorer : Restorer} {world after : World}
    {report : Report} (ran : config.run options restorer world = (.ok report, after)) :
    config.validate = .ok () ∧ ∃ files, config.processFiles options files
      (options.performRestore restorer world).2 = (.ok report.outcomes, after) := by
  obtain ⟨valid, -, processed⟩ := exists_files_of_run ran
  exact ⟨valid, processed⟩

theorem processFiles_of_keepGoing {options : RunOptions} (going : options.keepGoing = true)
    (files : List Text) (world : World) :
    ∃ outcomes after, config.processFiles options files world = (.ok outcomes, after) := by
  induction files generalizing world with
  | nil => exact ⟨[], world, rfl⟩
  | cons file files ih =>
      rw [processFiles]
      cases first : config.processFile options.dryRun file world with
      | mk result next =>
          obtain ⟨outcomes, after, later⟩ := ih next
          cases result with
          | ok entry =>
              refine ⟨.rewritten entry :: outcomes, after, ?_⟩
              simp only [later, Except.map]
          | error error =>
              refine ⟨.failed { file, error } :: outcomes, after, ?_⟩
              simp only [later, going, if_true, Except.map]

/-- A run that keeps going, and restores nothing, succeeds once it has selected its files. -/
theorem run_of_keepGoing {options : RunOptions} (restorer : Restorer) {world : World}
    {files : List Text} (valid : config.validate = .ok ()) (unasked : options.restore = none)
    (going : options.keepGoing = true) (selected : config.select world = .ok files) :
    ∃ report after, config.run options restorer world = (.ok report, after) := by
  obtain ⟨outcomes, after, processed⟩ := processFiles_of_keepGoing going files world
  rw [run_eq_processFiles restorer valid unasked selected, processed]
  exact ⟨_, after, rfl⟩

/-- A rewriting that succeeds changes the text if and only if it replaces a name.  Hence a run that
is no trial and succeeds counts as changed just the files that it has written, and it overwrites a
file exactly when its entry has renames. -/
theorem changed_iff_replaced (config : Config) (valid : config.validate = .ok ()) :
    (∀ content rewrite, config.rewrite content = .ok rewrite →
      (rewrite.content ≠ content ↔ 0 < rewrite.replacements)) ∧
    ∀ options restorer world report after, options.dryRun = false →
      config.run options restorer world = (.ok report, after) →
        report.changedFiles = (report.files.filter fun entry => entry.written).length ∧
          (∀ entry ∈ report.files, entry.written = true ↔ entry.renames ≠ .empty) ∧
          Overwrites config (options.performRestore restorer world).2 report.files after := by
  constructor
  · intro content rewrite rewritten
    exact content_ne_iff valid rewritten
  · intro options restorer world report after real ran
    obtain ⟨-, files, processed⟩ := run_eq_ok ran
    have overwrites := overwrites_processFiles valid real processed
    have written := overwrites.written_iff
    refine ⟨?_, ?_, overwrites⟩
    · rw [Report.changedFiles]
      apply congrArg List.length
      apply List.filter_congr
      intro entry member
      rw [Bool.eq_iff_iff, decide_eq_true_iff]
      exact (written entry member).2.symm
    · intro entry member
      exact (written entry member).1

/-- The run overwrites the first file, which holds a name that changes, and passes over the second
one. -/
theorem changed_iff_replaced_twoFiles :
    (unfiltered [['s']] .lexical).validate = .ok () ∧
      ∃ once report after, (unfiltered [['s']] .lexical).rewrite ['_', 'x'] = .ok once ∧
        (once.content ≠ ['_', 'x'] ↔ 0 < once.replacements) ∧
        (unfiltered [['s']] .lexical).run { keepGoing := true } .none twoFiles =
          (.ok report, after) ∧
        report.changedFiles = (report.files.filter fun entry => entry.written).length ∧
        (∀ entry ∈ report.files, entry.written = true ↔ entry.renames ≠ .empty) ∧
        Overwrites (unfiltered [['s']] .lexical) twoFiles report.files after := by
  have valid := validate_unfiltered [['s']] .lexical
  have selected : (unfiltered [['s']] .lexical).select twoFiles =
      .ok [['s', '/', 'a', '.', 'h'], ['s', '/', 'b', '.', 'h']] := by
    cbv
  have absent : '§' ∉ ['_', 'x'] := by decide
  obtain ⟨once, rewritten⟩ := rewrite_of_not_mem (unfiltered [['s']] .lexical) absent
  obtain ⟨report, after, ran⟩ := run_of_keepGoing .none valid
    (rfl : RunOptions.restore { keepGoing := true } = none) rfl selected
  obtain ⟨texts, runs⟩ := changed_iff_replaced (unfiltered [['s']] .lexical) valid
  exact ⟨valid, once, report, after, rewritten, texts _ once rewritten, ran,
    runs { keepGoing := true } .none twoFiles report after rfl ran⟩

end Config

end Recase
