import Recase.Run
import Recase.Proofs.Contents
import Recase.Proofs.Directories
import Recase.Proofs.Separation
import Mathlib

/-!
# The effect of a run

A run takes its files one after the other.  If no two of their paths lead to the same file, what
becomes of one of them depends on the bytes that it had before the run, whatever the run did to the
others in the meantime.  Files that cannot be rewritten keep their bytes, and so does every file
that was not selected.
-/

namespace Recase

namespace Sources

variable {sources : Sources} {world : World} {file : Text}

theorem isFile_of_mem_selectIn {directory : Text} (member : file ∈ sources.selectIn world directory) :
    world.isFile file = true := by
  simp only [selectIn, List.mem_map] at member
  obtain ⟨name, listed, rfl⟩ := member
  have kept := List.mem_filter.mp (Names.mem_of_mem_toList_ofList listed)
  exact (Bool.and_eq_true_iff.mp kept.2).2

theorem isFile_of_mem_selectAll {directories : List Text} {files : List Text}
    (selected : sources.selectAll world directories = .ok files) (member : file ∈ files) :
    world.isFile file = true := by
  have all := exists_selectAll_iff.mp ⟨files, selected⟩
  rw [selectAll_of_isDirectory all] at selected
  cases selected
  obtain ⟨directory, -, inside⟩ := List.mem_flatMap.mp member
  exact isFile_of_mem_selectIn inside

/-- No file has been selected unless it is a regular one. -/
theorem exists_fileNumber?_of_mem_select {files : List Text}
    (selected : sources.select world = .ok files) (member : file ∈ files) :
    ∃ number, world.fileNumber? file = some number := by
  rw [select] at selected
  split at selected
  · cases selected
  · exact World.exists_fileNumber?_of_isFile (isFile_of_mem_selectAll selected member)

end Sources

namespace Config

variable (config : Config)

/-! ## What becomes of a file -/

/-- Whether a file with some bytes can be rewritten: they are a text without the placeholder. -/
def Accepts (bytes : ByteArray) : Prop :=
  ∃ text, Text.decode? bytes = some text ∧ config.placeholder ∉ text

/-- What is wrong with a file that cannot be rewritten. -/
def fault (file : Text) (bytes : ByteArray) : Error :=
  match Text.decode? bytes with
  | none => World.failure .notText ("read ".toList ++ file)
  | some _ => .of (.placeholderCollision config.placeholder (some file))

/-- What a file with some bytes is rewritten to. -/
def rewriteBytes (file : Text) (bytes : ByteArray) : Except Error Rewrite :=
  match Text.decode? bytes with
  | none => .error (World.failure .notText ("read ".toList ++ file))
  | some text => (config.rewrite text).mapError (config.blame file)

/-- What is in a file after it has been taken, given what was in it before. -/
def newBytes (file : Text) (bytes : ByteArray) : ByteArray :=
  match config.rewriteBytes file bytes with
  | .ok rewrite => Text.encode rewrite.content
  | .error _ => bytes

/-- What is reported of a file, given what was in it before. -/
def outcome (file : Text) (bytes : ByteArray) : FileOutcome :=
  match config.rewriteBytes file bytes with
  | .ok rewrite =>
    .rewritten {
      file
      replacements := rewrite.replacements
      renames := rewrite.renames
      written := Text.decode? bytes ≠ some rewrite.content }
  | .error error => .failed { file, error }

theorem rewrite_nil :
    config.rewrite [] = .ok { content := [], replacements := 0, renames := .empty } := by
  have parts : config.mode.parts [] = [] := by
    cases config.mode with
    | lexical => simp [Mode.parts]
    | text => rfl
  have passes : config.protect [] = .ok (config.conceal []) :=
    Guard.protect_of_not_mem List.not_mem_nil
  rw [Guard.conceal_nil] at passes
  have rewritten := Guard.rewriteContentBy_of_protect passes config.toConvention config.mode.parts
  rw [parts] at rewritten
  exact rewritten.trans (by rw [Convention.rewriteBy, parts]; rfl)

variable {config} {file : Text} {bytes : ByteArray}

theorem rewriteBytes_of_decode? {text : Text} (decoded : Text.decode? bytes = some text)
    {rewrite : Rewrite} (rewritten : config.rewrite text = .ok rewrite) :
    config.rewriteBytes file bytes = .ok rewrite := by
  rw [rewriteBytes, decoded]
  simp only [rewritten, Except.mapError]

theorem rewriteBytes_of_accepts (file : Text) (accepts : config.Accepts bytes) :
    ∃ text rewrite, Text.decode? bytes = some text ∧ config.rewrite text = .ok rewrite ∧
      config.rewriteBytes file bytes = .ok rewrite := by
  obtain ⟨text, decoded, absent⟩ := accepts
  obtain ⟨rewrite, rewritten⟩ := config.rewrite_of_not_mem absent
  exact ⟨text, rewrite, decoded, rewritten, rewriteBytes_of_decode? decoded rewritten⟩

theorem rewriteBytes_of_not_accepts (refuses : ¬ config.Accepts bytes) :
    config.rewriteBytes file bytes = .error (config.fault file bytes) := by
  cases decoded : Text.decode? bytes with
  | none => rw [rewriteBytes, fault, decoded]
  | some text =>
      have present : config.placeholder ∈ text := by
        apply Classical.byContradiction
        intro absent
        exact refuses ⟨text, decoded, absent⟩
      rw [rewriteBytes, fault, decoded]
      simp only [config.rewrite_of_mem present, Except.mapError, blame, Error.of]

theorem newBytes_empty (file : Text) : config.newBytes file .empty = .empty := by
  have decoded : Text.decode? .empty = some [] := Text.decode?_encode []
  rw [newBytes, rewriteBytes_of_decode? decoded config.rewrite_nil]
  rfl

theorem newBytes_of_accepts (file : Text) (accepts : config.Accepts bytes) :
    ∃ text rewrite, Text.decode? bytes = some text ∧ config.rewrite text = .ok rewrite ∧
      config.newBytes file bytes = Text.encode rewrite.content := by
  obtain ⟨text, rewrite, decoded, rewritten, result⟩ := rewriteBytes_of_accepts file accepts
  refine ⟨text, rewrite, decoded, rewritten, ?_⟩
  rw [newBytes, result]

theorem newBytes_of_not_accepts (refuses : ¬ config.Accepts bytes) :
    config.newBytes file bytes = bytes := by
  rw [newBytes, rewriteBytes_of_not_accepts refuses]

theorem outcome_of_not_accepts (refuses : ¬ config.Accepts bytes) :
    config.outcome file bytes = .failed { file, error := config.fault file bytes } := by
  rw [outcome, rewriteBytes_of_not_accepts refuses]

theorem outcome_of_decode? (file : Text) {text : Text} (decoded : Text.decode? bytes = some text)
    {rewrite : Rewrite} (rewritten : config.rewrite text = .ok rewrite) :
    config.outcome file bytes = .rewritten
      { file, replacements := rewrite.replacements, renames := rewrite.renames
        written := some text ≠ some rewrite.content } := by
  rw [outcome, rewriteBytes_of_decode? decoded rewritten, decoded]

/-! ## Taking one file -/

section File

variable {world : World} {number : Nat}

theorem plan_eq (regular : world.fileNumber? file = some number) :
    config.plan file world = (config.rewriteBytes file (world.bytes file)).map fun rewrite =>
      (rewrite, decide (Text.decode? (world.bytes file) ≠ some rewrite.content)) := by
  have content := World.content_of_fileNumber? regular
  cases decoded : Text.decode? (world.bytes file) with
  | none =>
      rw [decoded] at content
      rw [plan, World.read, content, rewriteBytes, decoded]
      rfl
  | some text =>
      rw [decoded] at content
      have changed (other : Text) : decide (other ≠ text) = decide (some text ≠ some other) := by
        simp [eq_comm]
      rw [plan, World.read, content, rewriteBytes, decoded]
      cases rewritten : config.rewrite text with
      | error error => simp [Except.mapError, bind, Except.bind, rewritten, Except.map]
      | ok rewrite =>
          simp only [Except.mapError, bind, Except.bind, rewritten, Except.map, pure, Except.pure]
          rw [changed]

theorem processFile_of_not_accepts (regular : world.fileNumber? file = some number)
    (refuses : ¬ config.Accepts (world.bytes file)) (dryRun : Bool) :
    config.processFile dryRun file world =
      (.error (config.fault file (world.bytes file)), world) := by
  simp only [processFile, plan_eq regular, rewriteBytes_of_not_accepts refuses, Except.map]

theorem processFile_of_accepts (regular : world.fileNumber? file = some number)
    (writable : world.CanWrite file) (accepts : config.Accepts (world.bytes file)) :
    ∃ rewrite, config.outcome file (world.bytes file) = .rewritten rewrite ∧
      config.processFile false file world =
        (.ok rewrite, world.withBytes number (config.newBytes file (world.bytes file))) := by
  obtain ⟨text, rewrite, -, -, result⟩ := rewriteBytes_of_accepts file accepts
  have stored := World.store_of_fileNumber? regular writable rewrite.content
  refine ⟨_, by rw [outcome, result], ?_⟩
  simp only [processFile, plan_eq regular, result, Except.map, newBytes, Bool.not_false,
    Bool.and_true]
  by_cases changed : Text.decode? (world.bytes file) ≠ some rewrite.content
  · simp only [changed, decide_true, if_true, World.write, stored, ne_eq, not_false_eq_true]
  · have decoded := Classical.not_not.mp changed
    have same : Text.encode rewrite.content = world.bytes file := Text.encode_of_decode? decoded
    have kept : world.withBytes number (world.bytes file) = world := by
      rw [World.bytes_of_fileNumber? regular]
      exact world.withBytes_eq_self number
    simp only [decoded, same, kept, ne_eq, not_true_eq_false, decide_false, Bool.false_eq_true,
      if_false]

end File

/-! ## Taking files one after the other -/

/-- Regular files, no two of them the same, that can be written if they have to be. -/
structure Ready (config : Config) (files : List Text) (world : World) : Prop where
  regular : ∀ file ∈ files, ∃ number, world.fileNumber? file = some number
  distinct : (files.map world.fileNumber?).Nodup
  writable : ∀ file ∈ files, config.Accepts (world.bytes file) → world.CanWrite file

/-- What taking some files does to the surroundings: every path leads where it did, the bytes of a
file that was taken follow from those that it had, and a file that none of the paths leads to is as
it was. -/
structure Effect (config : Config) (files : List Text) (world after : World) : Prop where
  places : World.SamePlaces world after
  others : ∀ number, (∀ file ∈ files, world.fileNumber? file ≠ some number) →
    after.tree.file number = world.tree.file number
  taken : ∀ file ∈ files, after.bytes file = config.newBytes file (world.bytes file)

section Files

variable {files : List Text} {world after : World} {number : Nat}

theorem Ready.fresh (ready : config.Ready (file :: files) world)
    (regular : world.fileNumber? file = some number) :
    ∀ other ∈ files, world.fileNumber? other ≠ some number := by
  intro other member same
  have distinct := ready.distinct
  rw [List.map_cons, List.nodup_cons, regular, ← same] at distinct
  exact distinct.1 (List.mem_map_of_mem member)

/-- Files behind the first one do not notice that it gets other bytes. -/
theorem bytes_withBytes_of_fresh {other : Text} (fresh : world.fileNumber? other ≠ some number)
    (bytes : ByteArray) : (world.withBytes number bytes).bytes other = world.bytes other := by
  rw [World.bytes, (World.SamePlaces.withBytes world number bytes).fileNumber?, World.bytes]
  cases found : world.fileNumber? other with
  | none => rfl
  | some otherNumber =>
      have different : otherNumber ≠ number := by
        intro same
        rw [found, same] at fresh
        exact fresh rfl
      simp only [World.file_withBytes_of_ne different]

theorem Ready.tail (ready : config.Ready (file :: files) world)
    (regular : world.fileNumber? file = some number) (bytes : ByteArray) :
    config.Ready files (world.withBytes number bytes) := by
  have places := World.SamePlaces.withBytes world number bytes
  have same : (world.withBytes number bytes).fileNumber? = world.fileNumber? := by
    funext path
    exact places.fileNumber? path
  constructor
  · intro other member
    rw [same]
    exact ready.regular other (List.mem_cons_of_mem _ member)
  · rw [same]
    exact ready.distinct.of_cons
  · intro other member accepts
    rw [bytes_withBytes_of_fresh (ready.fresh regular other member)] at accepts
    exact places.canWrite (ready.writable other (List.mem_cons_of_mem _ member) accepts)

theorem Ready.sublist {part : List Text} (ready : config.Ready files world)
    (inside : part.Sublist files) : config.Ready part world := by
  constructor
  · intro file member
    exact ready.regular file (inside.subset member)
  · exact ready.distinct.sublist (inside.map _)
  · intro file member
    exact ready.writable file (inside.subset member)

theorem Effect.nil (world : World) : config.Effect [] world world :=
  ⟨.refl world, fun _ _ => rfl, fun _ member => absurd member List.not_mem_nil⟩

/-- The effect of taking a file and then some more. -/
theorem Effect.cons (ready : config.Ready (file :: files) world)
    (regular : world.fileNumber? file = some number)
    (behind : config.Effect files
      (world.withBytes number (config.newBytes file (world.bytes file))) after) :
    config.Effect (file :: files) world after := by
  have step := World.SamePlaces.withBytes world number (config.newBytes file (world.bytes file))
  have fresh := ready.fresh regular
  have places := step.trans behind.places
  constructor
  · exact places
  · intro other unselected
    have different : other ≠ number := by
      rintro rfl
      exact unselected file (by simp) regular
    rw [behind.others other ?_, World.file_withBytes_of_ne different]
    intro later member
    rw [step.fileNumber?]
    exact unselected later (List.mem_cons_of_mem _ member)
  · intro taken member
    rcases List.mem_cons.mp member with rfl | later
    · have kept := behind.others number fun later member => by
        rw [step.fileNumber?]
        exact fresh later member
      rw [World.bytes_of_fileNumber? (places.fileNumber? taken ▸ regular), kept]
      apply World.bytes_withBytes
      by_cases used : number < world.tree.files.size
      · exact .inl used
      · right
        rw [World.bytes_of_fileNumber? regular]
        simp [Tree.file, used, newBytes_empty]
    · rw [behind.taken taken later, bytes_withBytes_of_fresh (fresh taken later)]

/-- Files are taken to the end if none of them has to end the run. -/
theorem processFiles_eq_ok {options : RunOptions} (real : options.dryRun = false)
    (ready : config.Ready files world)
    (passes : ∀ file ∈ files, options.keepGoing = true ∨ config.Accepts (world.bytes file)) :
    ∃ after, config.processFiles options files world =
        (.ok (files.map fun file => config.outcome file (world.bytes file)), after) ∧
      config.Effect files world after := by
  induction files generalizing world with
  | nil => exact ⟨world, rfl, .nil world⟩
  | cons file files ih =>
      obtain ⟨number, regular⟩ := ready.regular file (by simp)
      have fresh := ready.fresh regular
      have nextBytes (other : Text) (member : other ∈ files) :=
        bytes_withBytes_of_fresh (fresh other member) (config.newBytes file (world.bytes file))
      obtain ⟨after, later, behind⟩ := ih (ready.tail regular _) fun other member => by
        rw [nextBytes other member]
        exact passes other (List.mem_cons_of_mem _ member)
      have outcomes : files.map (fun other => config.outcome other
          ((world.withBytes number (config.newBytes file (world.bytes file))).bytes other)) =
          files.map fun other => config.outcome other (world.bytes other) :=
        List.map_congr_left fun other member => by rw [nextBytes other member]
      rw [outcomes] at later
      refine ⟨after, ?_, .cons ready regular behind⟩
      by_cases accepts : config.Accepts (world.bytes file)
      · have writable := ready.writable file (by simp) accepts
        obtain ⟨rewrite, reported, processed⟩ := processFile_of_accepts regular writable accepts
        simp only [processFiles, real, processed, later, Except.map, List.map_cons, reported]
      · have going : options.keepGoing = true :=
          (passes file (by simp)).resolve_right accepts
        have same : world.withBytes number (config.newBytes file (world.bytes file)) = world := by
          rw [newBytes_of_not_accepts accepts, World.bytes_of_fileNumber? regular]
          exact world.withBytes_eq_self number
        rw [same] at later
        simp only [processFiles, real, processFile_of_not_accepts regular accepts, going, if_true,
          later, Except.map, List.map_cons, outcome_of_not_accepts accepts]

/-- The first file that cannot be rewritten is the last one that is taken. -/
theorem processFiles_eq_error {options : RunOptions} (real : options.dryRun = false)
    (stopping : options.keepGoing = false) {before later : List Text}
    (ready : config.Ready (before ++ file :: later) world)
    (accepted : ∀ earlier ∈ before, config.Accepts (world.bytes earlier))
    (refuses : ¬ config.Accepts (world.bytes file)) :
    ∃ after, config.processFiles options (before ++ file :: later) world =
        (.error (config.fault file (world.bytes file)), after) ∧
      config.Effect before world after := by
  induction before generalizing world with
  | nil =>
      obtain ⟨number, regular⟩ := ready.regular file (by simp)
      refine ⟨world, ?_, .nil world⟩
      simp only [List.nil_append, processFiles, real, processFile_of_not_accepts regular refuses,
        stopping, Bool.false_eq_true, if_false]
  | cons first before ih =>
      rw [List.cons_append] at ready
      obtain ⟨number, regular⟩ := ready.regular first (by simp)
      have fresh := ready.fresh regular
      have nextBytes (other : Text) (member : other ∈ before ++ file :: later) :=
        bytes_withBytes_of_fresh (fresh other member) (config.newBytes first (world.bytes first))
      have fileBytes := nextBytes file (by simp)
      obtain ⟨after, rest, behind⟩ := ih (ready.tail regular _)
        (fun other member => by
          rw [nextBytes other (by simp [member])]
          exact accepted other (List.mem_cons_of_mem _ member))
        (by rwa [fileBytes])
      have accepts := accepted first (by simp)
      have writable := ready.writable first (by simp) accepts
      obtain ⟨rewrite, reported, processed⟩ := processFile_of_accepts regular writable accepts
      rw [fileBytes] at rest
      have beforeReady := ready.sublist ((List.sublist_append_left before _).cons_cons first)
      refine ⟨after, ?_, .cons beforeReady regular behind⟩
      simp only [List.cons_append, processFiles, real, processed, rest, Except.map]

end Files

/-! ## A whole run -/

/-- Whether a file holds what its content is rewritten to. -/
def IsRewritten (config : Config) (world after : World) (file : Text) : Prop :=
  ∃ text rewrite, Text.decode? (world.bytes file) = some text ∧
    config.rewrite text = .ok rewrite ∧ after.bytes file = Text.encode rewrite.content

theorem Effect.isRewritten {files : List Text} {world after : World}
    (effect : config.Effect files world after) {file : Text} (member : file ∈ files)
    (accepts : config.Accepts (world.bytes file)) : config.IsRewritten world after file := by
  obtain ⟨text, rewrite, decoded, rewritten, result⟩ := newBytes_of_accepts file accepts
  exact ⟨text, rewrite, decoded, rewritten, (effect.taken file member).trans result⟩

/-- A file that none of the paths leads to has the bytes that it had. -/
theorem Effect.bytes_eq {files : List Text} {world after : World}
    (effect : config.Effect files world after) {other : Text}
    (unselected : ∀ file ∈ files, world.fileNumber? file ≠ world.fileNumber? other) :
    after.bytes other = world.bytes other := by
  rw [World.bytes, effect.places.fileNumber?, World.bytes]
  cases found : world.fileNumber? other with
  | none => rfl
  | some number =>
      have kept := effect.others number fun file member => by
        rw [← found]
        exact unselected file member
      simp only [kept]

/-- In a list that holds something unwanted there is a first such thing. -/
theorem exists_first_not {α : Type} {wanted : α → Prop} {items : List α}
    (unwanted : ¬ ∀ item ∈ items, wanted item) :
    ∃ before item behind, items = before ++ item :: behind ∧
      (∀ earlier ∈ before, wanted earlier) ∧ ¬ wanted item := by
  induction items with
  | nil => simp at unwanted
  | cons item items ih =>
      by_cases first : wanted item
      · have later : ¬ ∀ other ∈ items, wanted other := by
          intro rest
          apply unwanted
          simpa [first] using rest
        obtain ⟨before, other, behind, rfl, earlier, refused⟩ := ih later
        exact ⟨item :: before, other, behind, rfl, by simpa [first] using earlier, refused⟩
      · exact ⟨[], item, items, rfl, by simp, first⟩

/-- Selected files are ready to be taken if they are different and can be written once read. -/
theorem Ready.of_select {world : World} {files : List Text}
    (selected : config.select world = .ok files) (distinct : (files.map world.fileNumber?).Nodup)
    (writable : ∀ file ∈ files, (∃ text, world.content file = .ok text) → world.CanWrite file) :
    config.Ready files world := by
  constructor
  · intro file member
    exact Sources.exists_fileNumber?_of_mem_select selected member
  · exact distinct
  · intro file member accepts
    obtain ⟨number, regular⟩ := Sources.exists_fileNumber?_of_mem_select selected member
    obtain ⟨text, decoded, -⟩ := accepts
    apply writable file member
    exact ⟨text, by rw [World.content_of_fileNumber? regular, decoded]⟩

/-- A run that restores nothing does no more than take the files that are selected. -/
theorem run_eq_processFiles {options : RunOptions} (restorer : Restorer) {world : World}
    {files : List Text} (valid : config.validate = .ok ()) (unasked : options.restore = none)
    (selected : config.select world = .ok files) :
    config.run options restorer world =
      ((config.processFiles options files world).1.map fun outcomes =>
        { mode := config.mode, dryRun := options.dryRun, restore := none, outcomes },
        (config.processFiles options files world).2) := by
  simp only [run, valid, RunOptions.performRestore, unasked, selected]

/-- A run that ends with the error of the first file that cannot be rewritten: the files before it
are rewritten, and it is left alone, as are those behind it. -/
structure StopsAt (config : Config) (before : List Text) (file : Text) (later : List Text)
    (world after : World) (result : Except Error Report) : Prop where
  accepted : ∀ earlier ∈ before, config.Accepts (world.bytes earlier)
  refuses : ¬ config.Accepts (world.bytes file)
  error : result = .error (config.fault file (world.bytes file))
  rewritten : ∀ earlier ∈ before, config.IsRewritten world after earlier
  kept : ∀ other ∈ file :: later, after.bytes other = world.bytes other

theorem Effect.stopsAt {before later : List Text} {file : Text} {world after : World}
    (effect : config.Effect before world after)
    (distinct : ((before ++ file :: later).map world.fileNumber?).Nodup)
    (accepted : ∀ earlier ∈ before, config.Accepts (world.bytes earlier))
    (refuses : ¬ config.Accepts (world.bytes file)) :
    config.StopsAt before file later world after
      (.error (config.fault file (world.bytes file))) where
  accepted := accepted
  refuses := refuses
  error := rfl
  rewritten := fun earlier member => effect.isRewritten member (accepted earlier member)
  kept := by
    intro other member
    apply effect.bytes_eq
    intro earlier earlierMember
    rw [List.map_append] at distinct
    exact (List.nodup_append.mp distinct).2.2 _ (List.mem_map_of_mem earlierMember) _
      (List.mem_map_of_mem member)

/-- A directory with a file that can be rewritten, and one that holds the placeholder. -/
def twoFiles : World where
  tree := ((Tree.empty.set [['s']] .directory).addFile [['s'], ['a', '.', 'h']]
    { bytes := Text.encode ['_', 'x'] }).addFile [['s'], ['b', '.', 'h']]
    { bytes := Text.encode ['_', 'y', '§'] }

end Config

end Recase
