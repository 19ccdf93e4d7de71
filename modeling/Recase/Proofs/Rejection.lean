import Recase.Run
import Recase.Proofs.Directories
import Recase.Proofs.Separation
import Mathlib

/-!
# Rejected runs

A run is rejected when a setting is invalid, when no directory is given, or when a directory is
missing.  No file can be at fault for that, so that a rejected run has not begun to rewrite files.
It may have restored files, though: a directory is looked for only behind the restoration.
-/

namespace Recase

/-- The codes of the errors that reject a run. -/
def rejectionCodes : List Text :=
  ["config.invalid_value".toList, "validation.missing_argument".toList,
    "source.path_not_found".toList]

/-- Whether an error rejects a run. -/
def Error.IsRejection (error : Error) : Prop :=
  error.cause.code ∈ rejectionCodes

instance (error : Error) : Decidable error.IsRejection :=
  inferInstanceAs (Decidable (error.cause.code ∈ rejectionCodes))

/-! ## Errors that are about a file -/

/-- Whether an error is about a single file, which cannot be used or holds the placeholder. -/
inductive Error.IsOfFile : Error → Prop where
  | unusable (reason : Text) (context : Option Text) : IsOfFile (.of (.system reason context))
  | collision (placeholder : Char) (file : Option Text) :
      IsOfFile (.of (.placeholderCollision placeholder file))

theorem Error.IsOfFile.not_isRejection {error : Error} (ofFile : error.IsOfFile) :
    ¬ error.IsRejection := by
  have disjoint : ∀ kind ∈ [Kind.system, .placeholderCollision], kind.code ∉ rejectionCodes := by
    decide
  cases ofFile with
  | unusable => exact disjoint .system (by decide)
  | collision => exact disjoint .placeholderCollision (by decide)

theorem World.isOfFile_failure (error : FileError) (context : Text) :
    (failure error context).IsOfFile :=
  .unusable _ _

namespace Config

variable (config : Config)

theorem isOfFile_blame (file : Text) {content : Text} {error : Error}
    (refused : config.rewrite content = .error error) : (config.blame file error).IsOfFile := by
  have collision : error = .of (.placeholderCollision config.placeholder none) := by
    by_cases present : config.placeholder ∈ content
    · rw [config.rewrite_of_mem present] at refused
      exact (Except.error.inj refused).symm
    · obtain ⟨rewrite, rewritten⟩ := config.rewrite_of_not_mem present
      rw [rewritten] at refused
      cases refused
  subst collision
  exact .collision _ _

theorem isOfFile_of_plan {file : Text} {world : World} {error : Error}
    (failed : config.plan file world = .error error) : error.IsOfFile := by
  cases content : world.content file with
  | error fault =>
      rw [plan, World.read, content] at failed
      cases failed
      exact World.isOfFile_failure _ _
  | ok text =>
      cases rewritten : config.rewrite text with
      | ok rewrite =>
          simp only [plan, World.read, content, Except.mapError, bind, Except.bind, rewritten,
            pure, Except.pure] at failed
          cases failed
      | error refused =>
          simp only [plan, World.read, content, Except.mapError, bind, Except.bind, rewritten]
            at failed
          cases failed
          exact config.isOfFile_blame file rewritten

theorem isOfFile_of_processFile {dryRun : Bool} {file : Text} {world after : World}
    {error : Error} (failed : config.processFile dryRun file world = (.error error, after)) :
    error.IsOfFile := by
  cases planned : config.plan file world with
  | error fault =>
      simp only [processFile, planned] at failed
      cases failed
      exact config.isOfFile_of_plan planned
  | ok plan =>
      obtain ⟨rewrite, changed⟩ := plan
      simp only [processFile, planned] at failed
      split at failed
      · cases stored : world.store file rewrite.content with
        | ok written =>
            simp only [World.write, stored] at failed
            cases failed
        | error fault =>
            simp only [World.write, stored] at failed
            cases failed
            exact World.isOfFile_failure _ _
      · cases failed

/-- Where files are taken one after the other, the first error is about one of them. -/
theorem isOfFile_of_processFiles {options : RunOptions} {files : List Text}
    {world after : World} {error : Error}
    (failed : config.processFiles options files world = (.error error, after)) :
    error.IsOfFile := by
  induction files generalizing world with
  | nil => cases failed
  | cons file files ih =>
      cases processed : config.processFile options.dryRun file world with
      | mk result next =>
          have later {outcome : FileOutcome}
              (laterFailed : ((config.processFiles options files next).1.map (outcome :: ·),
                (config.processFiles options files next).2) = (.error error, after)) :
              error.IsOfFile := by
            cases whole : config.processFiles options files next with
            | mk result last =>
                rw [whole] at laterFailed
                cases result with
                | ok outcomes => cases laterFailed
                | error fault =>
                    cases laterFailed
                    exact ih whole
          cases result with
          | ok rewrite =>
              simp only [processFiles, processed] at failed
              exact later failed
          | error fault =>
              simp only [processFiles, processed] at failed
              split at failed
              · exact later failed
              · cases failed
                exact config.isOfFile_of_processFile processed

/-! ## Where a run ends -/

/-- A run that is rejected ends when its settings are checked or when the files are selected. -/
theorem run_rejected_cases {options : RunOptions} {restorer : Restorer} {world after : World}
    {error : Error} (rejected : config.run options restorer world = (.error error, after))
    (code : error.IsRejection) :
    (config.validate = .error error ∧ after = world) ∨
      (config.validate = .ok () ∧ after = (options.performRestore restorer world).2 ∧
        config.select after = .error error) := by
  cases valid : config.validate with
  | error fault =>
      simp only [run, valid] at rejected
      cases rejected
      exact .inl ⟨rfl, rfl⟩
  | ok _ =>
      cases selected : config.select (options.performRestore restorer world).2 with
      | error fault =>
          simp only [run, valid, selected] at rejected
          cases rejected
          exact .inr ⟨rfl, rfl, selected⟩
      | ok files =>
          simp only [run, valid, selected] at rejected
          cases processed :
              config.processFiles options files (options.performRestore restorer world).2 with
          | mk result last =>
              rw [processed] at rejected
              cases result with
              | ok outcomes => cases rejected
              | error fault =>
                  cases rejected
                  exact absurd code (config.isOfFile_of_processFiles processed).not_isRejection

theorem run_of_select_eq_error (options : RunOptions) (restorer : Restorer) (world : World)
    {error : Error} (valid : config.validate = .ok ())
    (unselected : config.select (options.performRestore restorer world).2 = .error error) :
    config.run options restorer world =
      (.error error, (options.performRestore restorer world).2) := by
  simp only [run, valid, unselected]

end Config

/-! ## Restorations -/

namespace RunOptions

variable (options : RunOptions) (restorer : Restorer) (world : World)

theorem performRestore_eq_self (unasked : ¬ (options.dryRun = false ∧ options.restore.isSome)) :
    (options.performRestore restorer world).2 = world := by
  cases restore : options.restore with
  | none => simp only [performRestore, restore]
  | some request =>
      have trial : options.dryRun = true := by simpa [restore] using unasked
      simp only [performRestore, restore, RestoreRequest.perform, trial, if_true]

theorem performRestore_eq_restorer {request : RestoreRequest} (real : options.dryRun = false)
    (restore : options.restore = some request) :
    (options.performRestore restorer world).2 =
      (restorer (world.expand request.root) request.exclude world).2 := by
  simp only [performRestore, restore, RestoreRequest.perform, real, Bool.false_eq_true, if_false]
  split <;> next performed => rw [performed]

end RunOptions

/-- The selection does not depend on which programs were started. -/
theorem Sources.select_started (sources : Sources) (world : World) (started : List Invocation) :
    sources.select { world with started } = sources.select world := by
  have all (listed : List Text) :
      sources.selectAll { world with started } listed = sources.selectAll world listed := by
    apply selectAll_congr
    · intro directory
      rfl
    · intro directory
      rfl
  unfold select
  rw [all]
  rfl

/-- The restorer that does the same as another one and starts a program besides. -/
def Restorer.noticed (restorer : Restorer) : Restorer := fun root exclude world =>
  let (result, after) := restorer root exclude world
  (result, { after with
    started := { directory := [], program := [], arguments := [] } :: after.started })

namespace Config

/-- Whether a run gets to restoring files. -/
def Restores (config : Config) (options : RunOptions) : Prop :=
  config.validate = .ok () ∧ options.dryRun = false ∧ options.restore.isSome

/-- A rejected run has touched nothing and has not even looked at its restorer, unless its settings
are valid and it was asked to restore files: then it leaves what the restorer has left. -/
theorem run_rejected_iff (config : Config) (options : RunOptions) (restorer : Restorer)
    {world after : World} {error : Error}
    (rejected : config.run options restorer world = (.error error, after))
    (code : error.IsRejection) :
    ((after = world ∧ ∀ other, config.run options other world = (.error error, world)) ↔
      ¬ config.Restores options) ∧
    ∀ request, config.Restores options → options.restore = some request →
      after = (restorer (world.expand request.root) request.exclude world).2 := by
  rcases config.run_rejected_cases rejected code with ⟨invalid, rfl⟩ | ⟨valid, rfl, unselected⟩
  · have unreached : ¬ config.Restores options := by
      rintro ⟨valid, _⟩
      rw [invalid] at valid
      cases valid
    refine ⟨⟨fun _ => unreached, fun _ => ⟨rfl, fun other => ?_⟩⟩, ?_⟩
    · simp only [run, invalid]
    · exact fun _ reached => absurd reached unreached
  · refine ⟨⟨fun untouched reached => ?_, fun unreached => ?_⟩, ?_⟩
    · obtain ⟨request, restore⟩ := Option.isSome_iff_exists.mp reached.2.2
      have performed (other : Restorer) :=
        options.performRestore_eq_restorer other world reached.2.1 restore
      have noticed : config.select (options.performRestore restorer.noticed world).2 =
          .error error := by
        rw [performed] at unselected ⊢
        exact (config.toSources.select_started _ _).trans unselected
      have same := (config.run_of_select_eq_error _ _ _ valid noticed).symm.trans
        (untouched.2 restorer.noticed)
      have kept := (Prod.mk.inj same).2
      rw [performed] at kept
      have longer := congrArg (fun world => world.started.length) kept
      have unchanged := congrArg (fun world => world.started.length) untouched.1
      rw [performed] at unchanged
      simp only [Restorer.noticed, List.length_cons] at longer unchanged
      omega
    · have unasked : ¬ (options.dryRun = false ∧ options.restore.isSome) :=
        fun asked => unreached ⟨valid, asked⟩
      have untouched := options.performRestore_eq_self restorer world unasked
      refine ⟨untouched, fun other => ?_⟩
      have otherUntouched :=
        options.performRestore_eq_self other world unasked
      rw [untouched] at unselected
      rw [config.run_of_select_eq_error _ _ _ valid (by rwa [otherUntouched]), otherUntouched]
    · intro request reached restore
      exact options.performRestore_eq_restorer restorer world reached.2.1 restore

/-- A configuration with a directory that is there and one that is missing. -/
def missingSource : Config :=
  unfiltered ["src".toList, "missing".toList] .lexical

/-- A directory with a single file. -/
def singleFile : World where
  tree := (Tree.empty.set ["src".toList] .directory).addFile ["src".toList, "a.cpp".toList]
    { bytes := Text.encode "int _x;".toList }

theorem run_rejected_iff_without_request :
    missingSource.run {} .none singleFile =
        (.error (.of (.sourceNotFound "missing".toList "not a directory".toList)), singleFile) ∧
      ∀ other, missingSource.run {} other singleFile =
        (.error (.of (.sourceNotFound "missing".toList "not a directory".toList)), singleFile) := by
  have unselected : missingSource.select singleFile =
      .error (.of (.sourceNotFound "missing".toList "not a directory".toList)) := by
    cbv
  have rejected := missingSource.run_of_select_eq_error {} .none singleFile
    (validate_unfiltered _ _) unselected
  have unreached : ¬ missingSource.Restores {} := by simp [Restores]
  have untouched := (missingSource.run_rejected_iff {} .none rejected (by decide)).1.mpr unreached
  exact ⟨rejected, untouched.2⟩

/-- The restorer that gives the file another content. -/
def overwriting : Restorer := fun _ _ world =>
  world.write "src/a.cpp".toList "int _y;".toList []

/-- The missing directory does not keep the restorer from its work. -/
theorem run_rejected_after_restore :
    missingSource.run { restore := some { root := ['.'], exclude := [] } } overwriting singleFile =
        (.error (.of (.sourceNotFound "missing".toList "not a directory".toList)),
          (overwriting ['.'] [] singleFile).2) ∧
      singleFile.content "src/a.cpp".toList = .ok "int _x;".toList ∧
      (overwriting ['.'] [] singleFile).2.content "src/a.cpp".toList = .ok "int _y;".toList := by
  have performed : (RunOptions.performRestore { restore := some { root := ['.'], exclude := [] } }
      overwriting singleFile).2 = (overwriting ['.'] [] singleFile).2 :=
    RunOptions.performRestore_eq_restorer _ overwriting singleFile rfl rfl
  have unselected : missingSource.select (overwriting ['.'] [] singleFile).2 =
      .error (.of (.sourceNotFound "missing".toList "not a directory".toList)) := by
    cbv
  refine ⟨?_, by cbv, by cbv⟩
  rw [← performed] at unselected ⊢
  exact missingSource.run_of_select_eq_error _ _ _ (validate_unfiltered _ _) unselected

end Config

end Recase
