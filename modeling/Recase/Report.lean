import Recase.Error
import Recase.Rewrite

/-!
# Reports

A report tells what became of the files of a run, in the order in which they were taken.  All totals
are counted from that.
-/

namespace Recase

/-- What became of a file that could be rewritten. -/
structure FileRewrite where
  file : Text
  replacements : Nat
  renames : Renames
  written : Bool
  deriving DecidableEq

/-- Why a file was passed over. -/
structure FileFailure where
  file : Text
  error : Error

/-- What became of a file. -/
inductive FileOutcome where
  | rewritten (rewrite : FileRewrite)
  | failed (failure : FileFailure)

namespace FileOutcome

/-- The path of the file. -/
def file : FileOutcome → Text
  | rewritten rewrite => rewrite.file
  | failed failure => failure.file

/-- The rewriting, if there was one. -/
def rewrite? : FileOutcome → Option FileRewrite
  | rewritten rewrite => some rewrite
  | failed _ => none

/-- The failure, if there was one. -/
def failure? : FileOutcome → Option FileFailure
  | rewritten _ => none
  | failed failure => some failure

end FileOutcome

/-- How a restoration came out.  A trial skips it. -/
inductive RestoreResult where
  | restored
  | skipped
  | failed (reason : Text)
  deriving DecidableEq, Repr

/-- What became of a request to restore files. -/
structure RestoreOutcome where
  root : Text
  result : RestoreResult
  deriving DecidableEq, Repr

/-- What a run did, with what became of the selected files in their order. -/
structure Report where
  mode : Mode
  dryRun : Bool
  restore : Option RestoreOutcome
  outcomes : List FileOutcome

namespace Report

/-- The files that could be rewritten. -/
def files (report : Report) : List FileRewrite :=
  report.outcomes.filterMap FileOutcome.rewrite?

/-- The files that were passed over. -/
def failures (report : Report) : List FileFailure :=
  report.outcomes.filterMap FileOutcome.failure?

/-- The number of selected files. -/
def totalFiles (report : Report) : Nat :=
  report.outcomes.length

/-- The number of files in which a name was replaced. -/
def changedFiles (report : Report) : Nat :=
  (report.files.filter fun file => 0 < file.replacements).length

/-- The number of names that were replaced. -/
def totalReplacements (report : Report) : Nat :=
  report.files.foldr (fun file total => file.replacements + total) 0

end Report

/-! ## Reports as JSON -/

/-- The object that maps old names to new names. -/
def Renames.toJson (renames : Renames) : Json :=
  .fields (renames.entries.map fun (old, new) => (old, .text new))

/-- The object that tells what became of a file. -/
def FileRewrite.toJson (rewrite : FileRewrite) : Json :=
  .record [
    ("file".toList, .text rewrite.file),
    ("replacements".toList, .nat rewrite.replacements),
    ("renames".toList, Renames.toJson rewrite.renames),
    ("written".toList, .bool rewrite.written)]

/-- The object that tells why a file was passed over. -/
def FileFailure.toJson (failure : FileFailure) : Json :=
  .record [
    ("file".toList, .text failure.file),
    ("code".toList, .text failure.error.cause.code),
    ("message".toList, .text failure.error.cause.message)]

/-- The object that tells how a restoration came out. -/
def RestoreOutcome.toJson (outcome : RestoreOutcome) : Json :=
  .record (
    ("root".toList, .text outcome.root) ::
    match outcome.result with
    | .restored => [("restored".toList, .bool true)]
    | .skipped => [("restored".toList, .bool false), ("skipped".toList, .bool true)]
    | .failed reason => [("restored".toList, .bool false), ("error".toList, .text reason)])

/-- The object that tells what a run did. -/
def Report.toJson (report : Report) : Json :=
  let failures := report.failures.map FileFailure.toJson
  .record (
    [("mode".toList, .text report.mode.name),
      ("dry_run".toList, .bool report.dryRun),
      ("files".toList, .array (report.files.map FileRewrite.toJson)),
      ("total_files".toList, .nat report.totalFiles),
      ("changed_files".toList, .nat report.changedFiles),
      ("total_replacements".toList, .nat report.totalReplacements)] ++
    Json.optional "restore".toList (report.restore.map RestoreOutcome.toJson) ++
    Json.optional "failures".toList (if failures.isEmpty then none else some (.array failures)))

end Recase
