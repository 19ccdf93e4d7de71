import Recase.Proofs.Agreement
import Recase.Proofs.Overwriting
import Recase.Proofs.Prediction
import Mathlib

/-!
# Visited names

A rewriting visits the identifiers of a source text, or the longest words of a running text, from
left to right.  The renames that it reports account for all that it does: they hold an entry for
each visited name that changes, and the new text is the old one with every visited name replaced by
its entry.  The new name depends on the old one and the convention alone, so the files of a run
agree about it.
-/

namespace Recase

open Character (isTextWord)
open Token (tokenize)

/-! ## Longest runs -/

namespace Text

/-- The longest runs of characters of a class, in order. -/
def runs (isMember : Char → Bool) (text : Text) : List Text :=
  match text with
  | [] => []
  | c :: rest =>
    if isMember c then
      (c :: rest.takeWhile isMember) :: runs isMember (rest.dropWhile isMember)
    else
      runs isMember rest
termination_by text.length
decreasing_by
  · have shorter := (List.dropWhile_suffix (l := rest) isMember).length_le
    simp only [List.length_cons]
    omega
  · simp

/-- A text with each of the longest runs of characters of a class replaced. -/
def replaceRuns (isMember : Char → Bool) (replace : Text → Text) (text : Text) : Text :=
  match text with
  | [] => []
  | c :: rest =>
    if isMember c then
      replace (c :: rest.takeWhile isMember) ++
        replaceRuns isMember replace (rest.dropWhile isMember)
    else
      c :: replaceRuns isMember replace rest
termination_by text.length
decreasing_by
  · have shorter := (List.dropWhile_suffix (l := rest) isMember).length_le
    simp only [List.length_cons]
    omega
  · simp

end Text

/-! ## Names that are visited -/

namespace Mode

/-- The names that a rewriting visits, in order and as often as they occur: the identifiers of a
source text, or the longest words of a running text. -/
def visited : Mode → Text → List Text
  | .lexical, content =>
    ((tokenize content).filter fun token => token.kind = .identifier).map Token.text
  | .text, content => Text.runs isTextWord content

/-- A text with the names that a rewriting visits replaced, and all else as it is. -/
def replaceVisited (replace : Text → Text) : Mode → Text → Text
  | .lexical, content =>
    (tokenize content).flatMap fun token =>
      if token.kind = .identifier then replace token.text else token.text
  | .text, content => Text.replaceRuns isTextWord replace content

end Mode

namespace Part

variable {isMember : Char → Bool}

/-- The names among some parts. -/
def names (parts : List Part) : List Text :=
  (parts.filter Part.isName).map Part.text

/-- The text that some parts make up once the names among them are replaced. -/
def replaceNames (replace : Text → Text) (parts : List Part) : Text :=
  parts.flatMap fun part => if part.isName then replace part.text else part.text

theorem names_push {c : Char} (outside : isMember c = false) (parts : List Part) :
    names (push isMember c parts) = names parts := by
  cases parts with
  | nil => simp [push, names, outside]
  | cons part parts =>
      rw [push]
      split
      · next same => simp [names, same, outside]
      · simp [names, outside]

theorem replaceNames_push (replace : Text → Text) {c : Char} (outside : isMember c = false)
    (parts : List Part) :
    replaceNames replace (push isMember c parts) = c :: replaceNames replace parts := by
  cases parts with
  | nil => simp [push, replaceNames, outside]
  | cons part parts =>
      rw [push]
      split
      · next same => simp [replaceNames, same, outside]
      · simp [replaceNames, outside]

/-- The names of a running text are its longest runs of word characters. -/
theorem names_ofWords (isMember : Char → Bool) (text : Text) :
    names (ofWords isMember text) = Text.runs isMember text := by
  induction text using wordInduction isMember with
  | nil => rw [Text.runs, ofWords, List.foldr_nil, names, List.filter_nil, List.map_nil]
  | other c rest outside ih =>
      rw [ofWords_cons, names_push outside, ih, Text.runs, outside, if_neg Bool.false_ne_true]
  | word word rest nonempty allMember ends ih =>
      obtain ⟨c, word, rfl⟩ := List.exists_cons_of_ne_nil nonempty
      have others : ∀ d ∈ word, isMember d = true :=
        fun d member => allMember d (List.mem_cons_of_mem c member)
      rw [ofWords_word nonempty allMember ends, List.cons_append, Text.runs,
        if_pos (allMember c List.mem_cons_self), ends.takeWhile_append others,
        ends.dropWhile_append others, ← ih]
      rfl

theorem replaceNames_ofWords (replace : Text → Text) (isMember : Char → Bool) (text : Text) :
    replaceNames replace (ofWords isMember text) = Text.replaceRuns isMember replace text := by
  induction text using wordInduction isMember with
  | nil => rw [Text.replaceRuns, ofWords, List.foldr_nil, replaceNames, List.flatMap_nil]
  | other c rest outside ih =>
      rw [ofWords_cons, replaceNames_push replace outside, ih, Text.replaceRuns, outside,
        if_neg Bool.false_ne_true]
  | word word rest nonempty allMember ends ih =>
      obtain ⟨c, word, rfl⟩ := List.exists_cons_of_ne_nil nonempty
      have others : ∀ d ∈ word, isMember d = true :=
        fun d member => allMember d (List.mem_cons_of_mem c member)
      rw [ofWords_word nonempty allMember ends, List.cons_append, Text.replaceRuns,
        if_pos (allMember c List.mem_cons_self), ends.takeWhile_append others,
        ends.dropWhile_append others, ← ih]
      rfl

end Part

namespace Mode

theorem names_parts (mode : Mode) (content : Text) :
    Part.names (mode.parts content) = mode.visited content := by
  cases mode with
  | lexical =>
      simp only [Part.names, parts, visited, List.filter_map, List.map_map]
      rfl
  | text => exact Part.names_ofWords isTextWord content

theorem replaceNames_parts (replace : Text → Text) (mode : Mode) (content : Text) :
    Part.replaceNames replace (mode.parts content) = mode.replaceVisited replace content := by
  cases mode with
  | lexical => simp [Part.replaceNames, parts, replaceVisited, List.flatMap_map, Part.ofToken]
  | text => exact Part.replaceNames_ofWords replace isTextWord content

end Mode

/-! ## What is recorded -/

theorem Index.mem_of_find {α : Type} {key : Text} {value : α} {entries : List (Text × α)}
    (found : find key entries = some value) : (key, value) ∈ entries := by
  induction entries with
  | nil => cases found
  | cons entry entries ih =>
      rw [find] at found
      split at found
      · next same =>
          cases found
          rw [same]
          exact List.mem_cons_self
      · exact List.mem_cons_of_mem entry (ih found)

namespace Convention

variable {convention : Convention} {parts : List Part} {name new : Text}

theorem ne_of_rename? (renamed : convention.rename? name = some new) : new ≠ name := by
  rintro rfl
  by_cases underscore : new.head? = some '_'
  · obtain ⟨first, head, origin⟩ := head_of_rename? renamed
    rw [underscore] at head
    cases head
    rcases origin with ⟨-, different⟩ | letter | capital
    · exact different rfl
    · exact absurd letter (by decide)
    · exact not_isCapitalForm_underscore capital
  · rw [rename?_of_head underscore, Option.ite_none_right_eq_some, camelCase?,
      Option.ite_none_right_eq_some] at renamed
    obtain ⟨-, -, joined⟩ := renamed
    obtain ⟨different, same⟩ := Option.ite_none_left_eq_some.mp joined
    exact different (Option.some.inj same)

theorem pair_mem_changes_iff : (name, new) ∈ convention.changes parts ↔
    name ∈ Part.names parts ∧ convention.rename? name = some new := by
  rw [mem_changes_iff, Part.names, List.mem_map]
  constructor
  · rintro ⟨part, member, isName, rfl, renamed⟩
    exact ⟨⟨part, List.mem_filter.mpr ⟨member, isName⟩, rfl⟩, renamed⟩
  · rintro ⟨⟨part, member, rfl⟩, renamed⟩
    obtain ⟨member, isName⟩ := List.mem_filter.mp member
    exact ⟨part, member, isName, rfl, renamed⟩

/-- What is recorded under a name is what the convention changes it to, if it occurs. -/
theorem find_changes_eq_some_iff : Index.find name (convention.changes parts) = some new ↔
    name ∈ Part.names parts ∧ convention.rename? name = some new := by
  constructor
  · intro found
    exact pair_mem_changes_iff.mp (Index.mem_of_find found)
  · rintro ⟨visited, renamed⟩
    have recorded : Index.find name (convention.changes parts) ≠ none :=
      Index.find_ne_none_iff.mpr ⟨(name, new), pair_mem_changes_iff.mpr ⟨visited, renamed⟩, rfl⟩
    obtain ⟨other, found⟩ := Option.ne_none_iff_exists'.mp recorded
    obtain ⟨-, also⟩ := pair_mem_changes_iff.mp (Index.mem_of_find found)
    rw [found, ← also, renamed]

end Convention

theorem Index.mem_keys_iff {α : Type} {index : Index α} {key : Text} :
    key ∈ index.keys ↔ (index.get? key).isSome = true := by
  rw [Option.isSome_iff_ne_none, get?, find_ne_none_iff, keys, List.mem_map]

theorem Index.nodup_keys {α : Type} (index : Index α) : index.keys.Nodup := by
  rw [keys, List.Nodup, List.pairwise_map]
  apply index.ascending.imp
  intro left right before same
  rw [same] at before
  exact List.lt_irrefl _ before

/-! ## One text -/

/-- What a rewriting tells of its renames accounts for all that it did to a text: the keys are the
visited names that change, the entry of a name is what it is changed to, every visited name that has
an entry is counted, and the new text is the old one with its entry in place of each of them. -/
structure Rewrite.Explains (rewrite : Rewrite) (config : Config) (content : Text) : Prop where
  keys : rewrite.renames.keys.Nodup ∧ ∀ name, name ∈ rewrite.renames.keys ↔
    name ∈ config.mode.visited (config.conceal content) ∧ (config.rename? name).isSome = true
  entries : ∀ name new, rewrite.renames.get? name = some new →
    config.rename? name = some new ∧ new ≠ name
  replacements : rewrite.replacements =
    (config.mode.visited (config.conceal content)).countP fun name =>
      rewrite.renames.keys.contains name
  content : rewrite.content =
    config.restore (config.mode.replaceVisited (fun name => (rewrite.renames.get? name).getD name)
      (config.conceal content))

namespace Convention

variable {convention : Convention} {parts : List Part}

/-- Every name among some parts is recorded with what it is changed to. -/
theorem get?_ofList_changes {name : Text} (visited : name ∈ Part.names parts) :
    (Index.ofList (convention.changes parts)).get? name = convention.rename? name := by
  rw [Index.get?_ofList]
  apply Option.ext
  intro new
  rw [find_changes_eq_some_iff]
  exact and_iff_right visited

theorem part_text_mem_names {part : Part} (member : part ∈ parts) (isName : part.isName = true) :
    part.text ∈ Part.names parts :=
  List.mem_map_of_mem (List.mem_filter.mpr ⟨member, isName⟩)

/-- As many names are changed as have a new name. -/
theorem length_changes_eq_countP (convention : Convention) (parts : List Part) :
    (convention.changes parts).length =
      (Part.names parts).countP fun name => (convention.rename? name).isSome := by
  rw [changes, List.length_filterMap_eq_countP, Part.names, List.countP_map, List.countP_filter]
  apply List.countP_congr
  intro part _
  cases isName : part.isName <;> simp [change?, isName]

theorem length_changes (convention : Convention) (parts : List Part) :
    (convention.changes parts).length = (Part.names parts).countP fun name =>
      (Index.ofList (convention.changes parts)).keys.contains name := by
  rw [length_changes_eq_countP]
  apply List.countP_congr
  intro name visited
  rw [List.contains_iff_mem, Index.mem_keys_iff, get?_ofList_changes visited]

/-- Replacing names by their entries is what a rewriting does to some parts. -/
theorem rewriteParts_eq_replaceNames (convention : Convention) (parts : List Part) :
    convention.rewriteParts parts = Part.replaceNames
      (fun name => ((Index.ofList (convention.changes parts)).get? name).getD name) parts := by
  rw [rewriteParts, Part.replaceNames]
  apply List.flatMap_congr
  intro part member
  cases isName : part.isName with
  | false => simp [rewritten, change?, isName]
  | true =>
      rw [get?_ofList_changes (part_text_mem_names member isName)]
      cases renamed : convention.rename? part.text <;> simp [rewritten, change?, isName, renamed]

end Convention

namespace Config

variable {config : Config}

theorem explains_of_rewrite {content : Text} {rewrite : Rewrite}
    (rewritten : config.rewrite content = .ok rewrite) : rewrite.Explains config content := by
  obtain ⟨-, rfl⟩ := rewrite_eq_ok rewritten
  have names := config.mode.names_parts (config.conceal content)
  constructor
  · refine ⟨Index.nodup_keys _, fun name => ?_⟩
    rw [Index.mem_keys_iff, Option.isSome_iff_exists, Option.isSome_iff_exists, ← names]
    simp only [Convention.rewriteBy, Index.get?_ofList, Convention.find_changes_eq_some_iff,
      exists_and_left]
  · intro name new recorded
    have found : Index.find name (config.changes (config.mode.parts (config.conceal content))) =
        some new := by
      rw [← Index.get?_ofList]
      exact recorded
    obtain ⟨-, renamed⟩ := Convention.find_changes_eq_some_iff.mp found
    exact ⟨renamed, Convention.ne_of_rename? renamed⟩
  · rw [← names]
    exact config.length_changes _
  · rw [← Mode.replaceNames_parts]
    exact congrArg config.restore (config.rewriteParts_eq_replaceNames _)

/-! ## The files of a run -/

/-- The entries of the files that a run takes tell the renames of rewritings. -/
theorem exists_rewrite_of_processFiles {options : RunOptions} {files : List Text}
    {world after : World} {outcomes : List FileOutcome}
    (processed : config.processFiles options files world = (.ok outcomes, after)) :
    ∀ entry ∈ outcomes.filterMap FileOutcome.rewrite?,
      ∃ content rewrite, config.rewrite content = .ok rewrite ∧
        entry.renames = rewrite.renames := by
  induction files generalizing world outcomes with
  | nil =>
      cases processed
      intro entry member
      cases member
  | cons file files ih =>
      obtain ⟨outcome, others, next, rfl, later, step⟩ := processFiles_cons_eq_ok processed
      have behind := ih later
      intro entry member
      rcases step with ⟨taken, first, rfl⟩ | ⟨error, -, -, rfl⟩
      · rcases List.mem_cons.mp member with rfl | member
        · obtain ⟨content, rewrite, written, -, rewritten, rfl⟩ :=
            exists_rewrite_of_processFile first
          exact ⟨content, rewrite, rewritten, rfl⟩
        · exact behind entry member
      · exact behind entry member

/-- What a rewriting reports accounts for what it did: its renames are the visited names that
change, and the new text is the old one with these names replaced.  Hence the files of a run have
the same new name for every old name that they share. -/
theorem rewrite_explained (config : Config) :
    (∀ content rewrite, config.rewrite content = .ok rewrite → rewrite.Explains config content) ∧
    ∀ options restorer world report after,
      config.run options restorer world = (.ok report, after) →
        ∀ first ∈ report.files, ∀ second ∈ report.files, ∀ name new other,
          first.renames.get? name = some new → second.renames.get? name = some other →
            new = other := by
  constructor
  · intro content rewrite rewritten
    exact explains_of_rewrite rewritten
  · intro options restorer world report after ran first firstMember second secondMember name new
      other firstEntry secondEntry
    obtain ⟨-, files, processed⟩ := run_eq_ok ran
    have told := exists_rewrite_of_processFiles processed
    obtain ⟨_, firstRewrite, firstRewritten, firstSame⟩ := told first firstMember
    obtain ⟨_, secondRewrite, secondRewritten, secondSame⟩ := told second secondMember
    rw [firstSame] at firstEntry
    rw [secondSame] at secondEntry
    obtain ⟨renamed, -⟩ := (explains_of_rewrite firstRewritten).entries name new firstEntry
    obtain ⟨also, -⟩ := (explains_of_rewrite secondRewritten).entries name other secondEntry
    rw [renamed] at also
    exact Option.some.inj also

/-- A directory with a header and a source file that share a name. -/
def sharedName : World where
  tree := ((Tree.empty.set [['s']] .directory).addFile [['s'], ['a', '.', 'h']]
    { bytes := Text.encode ['_', 'x'] }).addFile [['s'], ['b', '.', 'h']]
    { bytes := Text.encode ['_', 'x', '(', '_', 'y', ')', '_', 'x'] }

set_option maxRecDepth 4000 in
/-- The new name for `_x` is the same in both files, and the second file has it twice. -/
theorem rewrite_explained_sharedName :
    ∃ once report after first second new other,
      (unfiltered [['s']] .lexical).rewrite ['_', 'x', '(', '_', 'y', ')', '_', 'x'] = .ok once ∧
        once.Explains (unfiltered [['s']] .lexical) ['_', 'x', '(', '_', 'y', ')', '_', 'x'] ∧
        (unfiltered [['s']] .lexical).run { dryRun := true } .none sharedName =
          (.ok report, after) ∧
        report.files = [first, second] ∧ second.replacements = 3 ∧
        first.renames.get? ['_', 'x'] = some new ∧ second.renames.get? ['_', 'x'] = some other ∧
        new = other := by
  have selected : (unfiltered [['s']] .lexical).select sharedName =
      .ok [['s', '/', 'a', '.', 'h'], ['s', '/', 'b', '.', 'h']] := by
    cbv
  have numbers : ∀ file ∈ [['s', '/', 'a', '.', 'h'], ['s', '/', 'b', '.', 'h']],
      ∃ number, sharedName.fileNumber? file = some number :=
    fun file member => Sources.exists_fileNumber?_of_mem_select selected member
  have short : (unfiltered [['s']] .lexical).rewrite ['_', 'x'] = .ok
      { content := ['m', '_', 'X'], replacements := 1
        renames := Index.ofList [(['_', 'x'], ['m', '_', 'X'])] } := by
    cbv
  have long : (unfiltered [['s']] .lexical).rewrite ['_', 'x', '(', '_', 'y', ')', '_', 'x'] = .ok
      { content := ['m', '_', 'X', '(', 'm', '_', 'Y', ')', 'm', '_', 'X'], replacements := 3
        renames := Index.ofList
          [(['_', 'x'], ['m', '_', 'X']), (['_', 'y'], ['m', '_', 'Y'])] } := by
    cbv
  have firstText :
      Text.decode? (sharedName.bytes ['s', '/', 'a', '.', 'h']) = some ['_', 'x'] := by cbv
  have secondText : Text.decode? (sharedName.bytes ['s', '/', 'b', '.', 'h']) =
      some ['_', 'x', '(', '_', 'y', ')', '_', 'x'] := by cbv
  have firstOutcome := outcome_of_decode? ['s', '/', 'a', '.', 'h'] firstText short
  have secondOutcome := outcome_of_decode? ['s', '/', 'b', '.', 'h'] secondText long
  have passes : ∀ file ∈ [['s', '/', 'a', '.', 'h'], ['s', '/', 'b', '.', 'h']],
      RunOptions.keepGoing { dryRun := true } = true ∨
        (unfiltered [['s']] .lexical).Accepts (sharedName.bytes file) := by
    intro file member
    right
    simp only [List.mem_cons, List.not_mem_nil, or_false] at member
    rcases member with rfl | rfl
    · exact ⟨_, firstText, by decide⟩
    · exact ⟨_, secondText, by decide⟩
  have trial : RunOptions.dryRun { dryRun := true } = true := rfl
  have taken := processFiles_trial_eq_ok trial numbers passes
  have ran := run_eq_processFiles .none (validate_unfiltered [['s']] .lexical)
    (rfl : RunOptions.restore { dryRun := true } = none) selected
  rw [taken, List.map_cons, List.map_cons, firstOutcome, secondOutcome] at ran
  obtain ⟨texts, runs⟩ := rewrite_explained (unfiltered [['s']] .lexical)
  have firstEntry : (Index.ofList [(['_', 'x'], ['m', '_', 'X'])]).get? ['_', 'x'] =
      some ['m', '_', 'X'] := by
    decide
  have secondEntry : (Index.ofList [(['_', 'x'], ['m', '_', 'X']),
      (['_', 'y'], ['m', '_', 'Y'])]).get? ['_', 'x'] = some ['m', '_', 'X'] := by
    decide
  refine ⟨_, _, _, _, _, _, _, long, texts _ _ long, ran, rfl, rfl, firstEntry, secondEntry, ?_⟩
  exact runs { dryRun := true } .none sharedName _ _ ran _ List.mem_cons_self _
    (List.mem_cons_of_mem _ List.mem_cons_self) _ _ _ firstEntry secondEntry

end Config

end Recase
