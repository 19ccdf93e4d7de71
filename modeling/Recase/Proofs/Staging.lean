import Recase.Proofs.RestoredRuns
import Recase.Proofs.Runs
import Mathlib

/-!
# Staging before restoring

The version control brings back everything that is not staged.  The excluded paths have to be staged
before that, and if this fails nothing may be brought back.  Each command of the version control is
an attempt, which may fail in any way: the program may not start, or it may end with any status and
any output.  The restoration attempts the commands of a plan one after the other and goes no further
than to the first attempt that fails, whose complaint becomes its error.
-/

namespace Recase

open Character (isBlank)

/-! ## Trimmed texts -/

/-- Whether a text is another one without the characters of a class at its ends. -/
structure Text.Trims (isOuter : Char → Bool) (text inner : Text) : Prop where
  ends : ∃ before behind, text = before ++ inner ++ behind ∧
    (∀ c ∈ before, isOuter c = true) ∧ ∀ c ∈ behind, isOuter c = true
  first : EndsWord isOuter inner
  last : EndsWord isOuter inner.reverse

namespace Text

variable {isOuter : Char → Bool} {text inner : Text}

theorem trims_trim (isOuter : Char → Bool) (text : Text) :
    Trims isOuter text (trim isOuter text) := by
  have front : text = text.takeWhile isOuter ++ text.dropWhile isOuter :=
    List.takeWhile_append_dropWhile.symm
  have back : text.dropWhile isOuter =
      trim isOuter text ++ ((text.dropWhile isOuter).reverse.takeWhile isOuter).reverse := by
    rw [trim, ← List.reverse_append, List.takeWhile_append_dropWhile, List.reverse_reverse]
  refine ⟨⟨text.takeWhile isOuter, ((text.dropWhile isOuter).reverse.takeWhile isOuter).reverse,
    ?_, ?_, ?_⟩, ?_, ?_⟩
  · rw [List.append_assoc, ← back, ← front]
  · intro c member
    exact List.mem_takeWhile_imp member
  · intro c member
    exact List.mem_takeWhile_imp (List.mem_reverse.mp member)
  · intro c head
    apply EndsWord.dropWhile isOuter text c
    rw [back, List.head?_append, head, Option.some_or]
  · rw [trim, List.reverse_reverse]
    exact .dropWhile isOuter _

theorem Trims.eq_nil_iff (trims : Trims isOuter text inner) :
    inner = [] ↔ ∀ c ∈ text, isOuter c = true := by
  obtain ⟨before, behind, rfl, front, back⟩ := trims.ends
  constructor
  · rintro rfl c member
    rw [List.append_nil] at member
    exact (List.mem_append.mp member).elim (front c) (back c)
  · intro outer
    cases inner with
    | nil => rfl
    | cons c rest =>
        have inside := outer c (by simp)
        rw [trims.first c rfl] at inside
        cases inside

end Text

/-! ## Attempts -/

/-- What a program that has ended says of its failure: what it has written to its standard error,
or to its standard output if that is blank. -/
inductive Finished.Complains (finished : Finished) : Text → Prop where
  | errorOutput {complaint : Text}
      (heard : ¬ ∀ c ∈ Text.decodeLossy finished.errorOutput, isBlank c = true)
      (trims : Text.Trims isBlank (Text.decodeLossy finished.errorOutput) complaint) :
      Complains finished complaint
  | output {complaint : Text}
      (silent : ∀ c ∈ Text.decodeLossy finished.errorOutput, isBlank c = true)
      (trims : Text.Trims isBlank (Text.decodeLossy finished.output) complaint) :
      Complains finished complaint

theorem Finished.complains_complaint (finished : Finished) :
    finished.Complains finished.complaint := by
  have trims := Text.trims_trim isBlank (Text.decodeLossy finished.errorOutput)
  rw [← trimmed] at trims
  rw [complaint]
  split
  · next nothing =>
      exact .output (trims.eq_nil_iff.mp nothing) (Text.trims_trim isBlank _)
  · next something =>
      exact .errorOutput (fun silent => something (trims.eq_nil_iff.mpr silent)) trims

namespace Restorer

/-- An attempt to run the version control: what it was given, and what came of it. -/
structure Attempt where
  arguments : List Text
  outcome : Except FileError Finished

namespace Attempt

/-- The attempt to run the version control in a directory. -/
def of (root : Text) (arguments : List Text) (world : World) : Attempt where
  arguments := arguments
  outcome := (world.start root "git".toList arguments).1

/-- Whether the program was started and has ended with the status zero. -/
def Succeeds (attempt : Attempt) : Prop :=
  ∃ finished, attempt.outcome = .ok finished ∧ finished.status = some 0

/-- What is told of an attempt that fails, with the name of the step: that the program could not be
started, or how it ended. -/
inductive Tells (attempt : Attempt) : Text → Prop where
  | unstarted {error : FileError} (failed : attempt.outcome = .error error) :
      Tells attempt ("Failed to run git: ".toList ++ error.message)
  | killed {finished : Finished} {complaint : Text} (ended : attempt.outcome = .ok finished)
      (signal : finished.status = .none) (complains : finished.Complains complaint) :
      Tells attempt ("git ".toList ++ attempt.arguments.headD [] ++ " (exit ".toList ++
        "signal".toList ++ "): ".toList ++ complaint)
  | unsuccessful {finished : Finished} {status : Nat} {complaint : Text}
      (ended : attempt.outcome = .ok finished) (failed : finished.status = some status)
      (nonzero : status ≠ 0) (complains : finished.Complains complaint) :
      Tells attempt ("git ".toList ++ attempt.arguments.headD [] ++ " (exit ".toList ++
        Text.ofNat status ++ "): ".toList ++ complaint)

/-- What comes of a single attempt. -/
inductive Yields (attempt : Attempt) : Except Error Unit → Prop where
  | success (succeeds : attempt.Succeeds) : Yields attempt (.ok ())
  | failure (fails : ¬ attempt.Succeeds) {reason : Text} (tells : attempt.Tells reason) :
      Yields attempt (.error (.of (.versionControl reason)))

end Attempt

/-- A command of the version control is one attempt, if the step is named after it. -/
theorem yields_git (root : Text) {arguments : List Text} {step : Text}
    (named : step = "git ".toList ++ arguments.headD []) (world : World) :
    (Attempt.of root arguments world).Yields (git root arguments step world).1 ∧
      (git root arguments step world).2 = (world.start root "git".toList arguments).2 := by
  rw [git, World.run]
  cases tried : world.start root "git".toList arguments with
  | mk outcome next =>
      have known : (Attempt.of root arguments world).outcome = outcome := by
        rw [Attempt.of, tried]
      cases outcome with
      | error error =>
          refine ⟨.failure ?_ (.unstarted known), rfl⟩
          rintro ⟨finished, started, -⟩
          rw [known] at started
          cases started
      | ok finished =>
          have fails (failed : finished.status ≠ some 0) :
              ¬ (Attempt.of root arguments world).Succeeds := by
            rintro ⟨other, ended, zero⟩
            rw [known] at ended
            cases ended
            exact failed zero
          have complains := finished.complains_complaint
          dsimp only
          by_cases zero : finished.status = some 0
          · rw [if_pos zero]
            exact ⟨.success ⟨finished, known, zero⟩, rfl⟩
          · rw [if_neg zero, named]
            refine ⟨.failure (fails zero) ?_, rfl⟩
            cases ended : finished.status with
            | none => exact .killed known ended complains
            | some status =>
                have nonzero : status ≠ 0 := by
                  rintro rfl
                  exact zero ended
                exact .unsuccessful known ended nonzero complains

/-- Attempts one after the other, each in the surroundings that the one before it leaves. -/
inductive Attempts (root : Text) : World → List Attempt → World → Prop where
  | finished (world : World) : Attempts root world [] world
  | next {world after : World} {arguments : List Text} {others : List Attempt}
      (later : Attempts root (world.start root "git".toList arguments).2 others after) :
      Attempts root world (.of root arguments world :: others) after

/-! ## Plans -/

/-- The attempts at the commands of a plan, and the result.  The first attempt that fails is the
last one. -/
inductive CarriesOut : List (List Text) → List Attempt → Except Error Unit → Prop where
  | finished : CarriesOut [] [] (.ok ())
  | givesUp {arguments : List Text} {plan : List (List Text)} {attempt : Attempt} {error : Error}
      (same : attempt.arguments = arguments) (yields : attempt.Yields (.error error)) :
      CarriesOut (arguments :: plan) [attempt] (.error error)
  | goesOn {arguments : List Text} {plan : List (List Text)} {attempt : Attempt}
      {others : List Attempt} {result : Except Error Unit}
      (same : attempt.arguments = arguments) (yields : attempt.Yields (.ok ()))
      (later : CarriesOut plan others result) :
      CarriesOut (arguments :: plan) (attempt :: others) result

theorem Attempt.Yields.succeeds {attempt : Attempt} (yields : attempt.Yields (.ok ())) :
    attempt.Succeeds := by
  cases yields with
  | success succeeds => exact succeeds

namespace CarriesOut

variable {plan : List (List Text)} {attempts : List Attempt} {result : Except Error Unit}

/-- Nothing but the plan is attempted, in its order. -/
theorem arguments_prefix (carries : CarriesOut plan attempts result) :
    attempts.map Attempt.arguments <+: plan := by
  induction carries with
  | finished => exact List.prefix_rfl
  | givesUp same _ =>
      rw [List.map_singleton, same]
      exact List.cons_prefix_cons.mpr ⟨rfl, List.nil_prefix⟩
  | goesOn same _ _ ih =>
      rw [List.map_cons, same]
      exact List.cons_prefix_cons.mpr ⟨rfl, ih⟩

theorem arguments_of_ok (carries : CarriesOut plan attempts result) (succeeded : result = .ok ()) :
    attempts.map Attempt.arguments = plan := by
  induction carries with
  | finished => rfl
  | givesUp => cases succeeded
  | goesOn same _ _ ih => rw [List.map_cons, same, ih succeeded]

theorem eq_ok_iff (carries : CarriesOut plan attempts result) :
    result = .ok () ↔ ∀ attempt ∈ attempts, attempt.Succeeds := by
  induction carries with
  | finished => simp
  | givesUp _ yields =>
      cases yields with
      | failure fails _ => simp [fails]
  | goesOn _ yields _ ih => simp [ih, yields.succeeds]

/-- An attempt is made only after all attempts before it have succeeded. -/
theorem succeeds_of_eq_append (carries : CarriesOut plan attempts result) {attempt : Attempt}
    {before behind : List Attempt} (split : attempts = before ++ attempt :: behind) :
    ∀ earlier ∈ before, earlier.Succeeds := by
  induction carries generalizing before with
  | finished => simp at split
  | givesUp =>
      cases before with
      | nil => simp
      | cons first before => simp at split
  | goesOn _ yields _ ih =>
      cases before with
      | nil => simp
      | cons first before =>
          obtain ⟨rfl, rest⟩ := List.cons.inj split
          exact List.forall_mem_cons.mpr ⟨yields.succeeds, ih rest⟩

/-- The error of a plan is the one of the attempt that was the last, for it has failed. -/
theorem last_of_error (carries : CarriesOut plan attempts result) {error : Error}
    (failed : result = .error error) :
    ∃ before last, attempts = before ++ [last] ∧ last.Yields (.error error) := by
  induction carries with
  | finished => cases failed
  | givesUp _ yields =>
      cases failed
      exact ⟨[], _, rfl, yields⟩
  | @goesOn _ _ attempt _ _ _ _ _ ih =>
      obtain ⟨before, last, rfl, yields⟩ := ih failed
      exact ⟨attempt :: before, last, rfl, yields⟩

end CarriesOut

/-! ## Restorations -/

/-- What the version control is given to stage paths. -/
def stagingArguments (exclude : List Text) : List Text :=
  "add".toList :: "--".toList :: exclude

/-- What the version control is given to bring everything back that is not staged. -/
def restoringArguments : List Text :=
  ["restore".toList, "--worktree".toList, "--".toList, ".".toList]

/-- The commands of a restoration.  Nothing is staged if nothing is excluded. -/
def plan (exclude : List Text) : List (List Text) :=
  (if exclude.isEmpty then [] else [stagingArguments exclude]) ++ [restoringArguments]

theorem plan_cons (path : Text) (exclude : List Text) :
    plan (path :: exclude) = [stagingArguments (path :: exclude), restoringArguments] :=
  rfl

theorem versionControl_of_staged {root path : Text} {exclude : List Text} {world next : World}
    (staged : git root (stagingArguments (path :: exclude)) "git add".toList world =
      (.ok (), next)) :
    versionControl root (path :: exclude) world =
      git root restoringArguments "git restore".toList next := by
  rw [stagingArguments] at staged
  simp only [versionControl, List.isEmpty_cons, Bool.false_eq_true, if_false, staged]
  rfl

theorem versionControl_of_unstaged {root path : Text} {exclude : List Text} {world next : World}
    {error : Error}
    (unstaged : git root (stagingArguments (path :: exclude)) "git add".toList world =
      (.error error, next)) :
    versionControl root (path :: exclude) world = (.error error, next) := by
  rw [stagingArguments] at unstaged
  simp only [versionControl, List.isEmpty_cons, Bool.false_eq_true, if_false, unstaged]

theorem exists_attempts_git (root : Text) {arguments : List Text} {step : Text}
    (named : step = "git ".toList ++ arguments.headD []) (world : World) :
    ∃ attempts, Attempts root world attempts (git root arguments step world).2 ∧
      CarriesOut [arguments] attempts (git root arguments step world).1 := by
  obtain ⟨yields, left⟩ := yields_git root named world
  refine ⟨[.of root arguments world], ?_, ?_⟩
  · rw [left]
    exact .next (.finished _)
  · cases result : (git root arguments step world).1 with
    | ok _ => exact .goesOn rfl (result ▸ yields) .finished
    | error error => exact .givesUp rfl (result ▸ yields)

/-- A restoration carries out its plan. -/
theorem exists_attempts (root : Text) (exclude : List Text) (world : World) :
    ∃ attempts, Attempts root world attempts (versionControl root exclude world).2 ∧
      CarriesOut (plan exclude) attempts (versionControl root exclude world).1 := by
  have restoring : "git restore".toList = "git ".toList ++ restoringArguments.headD [] := by cbv
  cases exclude with
  | nil => exact exists_attempts_git root restoring world
  | cons path exclude =>
      have staging : "git add".toList =
          "git ".toList ++ (stagingArguments (path :: exclude)).headD [] := by cbv
      obtain ⟨yields, left⟩ := yields_git root staging world
      cases added : git root (stagingArguments (path :: exclude)) "git add".toList world with
      | mk result next =>
          rw [added] at yields left
          dsimp only at left
          cases result with
          | ok _ =>
              obtain ⟨attempts, made, carries⟩ := exists_attempts_git root restoring next
              rw [versionControl_of_staged added]
              refine ⟨.of root (stagingArguments (path :: exclude)) world :: attempts, .next ?_,
                .goesOn rfl yields carries⟩
              rw [← left]
              exact made
          | error error =>
              rw [versionControl_of_unstaged added]
              refine ⟨[.of root (stagingArguments (path :: exclude)) world], ?_,
                .givesUp rfl yields⟩
              rw [left]
              exact .next (.finished _)

/-- A restoration and its attempts.  The excluded paths are staged first, if there are any, and
nothing is brought back unless they are.  The restoration succeeds if and only if all attempts do,
and it fails with the last of them, which its error tells of. -/
structure Guards (exclude : List Text) (attempts : List Attempt) (result : Except Error Unit) :
    Prop where
  planned : attempts.map Attempt.arguments <+: plan exclude
  guarded : ∀ before restoring behind, attempts = before ++ restoring :: behind →
    restoring.arguments = restoringArguments →
      exclude = [] ∨
        ∃ staging, before = [staging] ∧ staging.arguments = stagingArguments exclude ∧
          staging.Succeeds
  succeeds : result = .ok () ↔ ∀ attempt ∈ attempts, attempt.Succeeds
  complete : result = .ok () → attempts.map Attempt.arguments = plan exclude
  fails : ∀ error, result = .error error → ∃ before last, attempts = before ++ [last] ∧
    (∀ attempt ∈ before, attempt.Succeeds) ∧ ¬ last.Succeeds ∧
      error.cause.code = "git.command_failed".toList ∧ last.Tells error.cause.message

theorem stagingArguments_ne_restoringArguments (exclude : List Text) :
    stagingArguments exclude ≠ restoringArguments := by
  intro same
  have first := (List.cons.inj same).1
  revert first
  decide

/-- Whoever carries out the plan of a restoration guards the excluded paths. -/
theorem CarriesOut.guards {exclude : List Text} {attempts : List Attempt}
    {result : Except Error Unit} (carries : CarriesOut (plan exclude) attempts result) :
    Guards exclude attempts result where
  planned := carries.arguments_prefix
  guarded := by
    intro before restoring behind split restores
    cases exclude with
    | nil => exact .inl rfl
    | cons path exclude =>
        right
        have order := carries.arguments_prefix
        rw [split, List.map_append, List.map_cons, plan_cons] at order
        cases before with
        | nil =>
            have first := (List.cons_prefix_cons.mp order).1
            exact absurd (first.symm.trans restores)
              (stagingArguments_ne_restoringArguments (path :: exclude))
        | cons staging before =>
            rw [List.map_cons, List.cons_append] at order
            obtain ⟨first, rest⟩ := List.cons_prefix_cons.mp order
            have short : before = [] := by
              have length := rest.length_le
              simp only [List.length_append, List.length_map, List.length_cons,
                List.length_nil] at length
              exact List.length_eq_zero_iff.mp (by omega)
            refine ⟨staging, by rw [short], first, ?_⟩
            exact carries.succeeds_of_eq_append split staging (by simp)
  succeeds := carries.eq_ok_iff
  complete := carries.arguments_of_ok
  fails := by
    intro error failed
    obtain ⟨before, last, split, yields⟩ := carries.last_of_error failed
    cases yields with
    | failure fails tells =>
        exact ⟨before, last, split, carries.succeeds_of_eq_append split, fails, rfl, tells⟩

end Restorer

/-! ## Reports of restorations -/

/-- Whether the object for a report tells why the restoration failed. -/
def Report.TellsRestoreError (report : Report) (reason : Text) : Prop :=
  ∃ outcome, report.toJson.member? "restore".toList = some outcome ∧
    outcome.member? "error".toList = some (.text reason)

theorem Report.restore_toJson (report : Report) :
    report.toJson.member? "restore".toList = report.restore.map RestoreOutcome.toJson := by
  rw [toJson, Json.member?_record, List.append_assoc, Index.find_append, Index.find_append]
  cases report.restore with
  | none => cases (report.failures.map FileFailure.toJson).isEmpty <;> rfl
  | some outcome => rfl

/-- The report of a run that could not restore files tells why. -/
theorem Config.tellsRestoreError_of_run {config : Config} {options : RunOptions}
    {restorer : Restorer} {request : RestoreRequest} {world after : World} {report : Report}
    {error : Error} (real : options.dryRun = false) (asked : options.restore = some request)
    (failed : (restorer (world.expand request.root) request.exclude world).1 = .error error)
    (ran : config.run options restorer world = (.ok report, after)) :
    report.TellsRestoreError error.detail := by
  obtain ⟨-, restored, -⟩ := exists_files_of_run ran
  have told := (request.tells_perform restorer world).failure error failed
  refine ⟨_, ?_, told.2⟩
  rw [report.restore_toJson, restored, RunOptions.performRestore, asked, real]
  rfl

namespace Restorer

/-- Excluded paths keep their changes however the version control behaves.  At most two commands
are attempted, both in the directory of the restoration: one stages the excluded paths, in their
order, and the other one brings the rest back.  The latter is not attempted unless nothing is
excluded or the former has succeeded.  The restoration succeeds if and only if all attempts do.
Otherwise its error tells of the attempt that failed, and so does the report of a run that began
with the restoration. -/
theorem versionControl_guards (root : Text) (exclude : List Text) (world : World) :
    ∃ attempts, Attempts root world attempts (versionControl root exclude world).2 ∧
      Guards exclude attempts (versionControl root exclude world).1 ∧
      ∀ error, (versionControl root exclude world).1 = .error error →
        ∀ (config : Config) (options : RunOptions) (path : Text) (report : Report) (after : World),
          options.dryRun = false → options.restore = some { root := path, exclude } →
          world.expand path = root →
          config.run options versionControl world = (.ok report, after) →
            report.TellsRestoreError error.cause.message := by
  obtain ⟨attempts, made, carries⟩ := exists_attempts root exclude world
  refine ⟨attempts, made, carries.guards, ?_⟩
  intro error failed config options path report after real asked expanded ran
  obtain ⟨before, last, -, yields⟩ := carries.last_of_error failed
  subst expanded
  have told := Config.tellsRestoreError_of_run real asked failed ran
  cases yields with
  | failure => exact told

end Restorer

end Recase
