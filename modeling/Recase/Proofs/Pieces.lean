import Recase.Proofs.Occurrences
import Recase.Proofs.Visits
import Mathlib

/-!
# Rewriting piece by piece

A placeholder belongs to no word, and so it bounds the words on either side of it.  Running text is
therefore rewritten between its separators as if each piece stood alone, whatever the separator
consists of: underscores, letters, or a text that overlaps with itself.
-/

namespace Recase

open Character (marks)

/-! ## Parts on both sides of a character -/

namespace Part

variable {isWord : Char → Bool} {left right behind : List Part}

theorem Interchangeable.append_right (front : Interchangeable left right) (behind : List Part) :
    Interchangeable (left ++ behind) (right ++ behind) := by
  constructor
  · intro convention
    rw [Convention.rewriteParts_append, Convention.rewriteParts_append, front.content]
  · intro convention
    rw [Convention.changes_append, Convention.changes_append, front.changes]

theorem interchangeable_push {c : Char} (noWord : isWord c = false) (parts : List Part) :
    Interchangeable (push isWord c parts) ({ isName := false, text := [c] } :: parts) := by
  constructor
  · intro convention
    rw [Convention.rewriteParts_push noWord, Convention.rewriteParts_other,
      List.singleton_append]
  · intro convention
    rw [Convention.changes_push noWord, Convention.changes_other]

/-- A character outside words leaves the words in front of it and those behind it as they are. -/
theorem interchangeable_ofWords_append {mark : Char} (noWord : isWord mark = false)
    (front behind : Text) :
    Interchangeable (ofWords isWord (front ++ mark :: behind))
      (ofWords isWord front ++ { isName := false, text := [mark] } :: ofWords isWord behind) := by
  induction front using wordInduction isWord with
  | nil => exact interchangeable_push noWord (ofWords isWord behind)
  | other c rest outside ih =>
      rw [List.cons_append, ofWords_cons, ofWords_cons]
      have pushed := interchangeable_push outside (ofWords isWord (rest ++ mark :: behind))
      have apart := interchangeable_push outside (ofWords isWord rest)
      exact (pushed.trans (ih.append [{ isName := false, text := [c] }])).trans
        (apart.append_right _).symm
  | word word rest nonempty allWord ends ih =>
      have bounded : EndsWord isWord (rest ++ mark :: behind) :=
        ends.append (.cons noWord behind)
      rw [List.append_assoc, ofWords_word nonempty allWord bounded,
        ofWords_word nonempty allWord ends]
      exact ih.append [{ isName := true, text := word }]

end Part

namespace Convention

variable {convention : Convention} {isWord : Char → Bool} {mark : Char}

theorem rewriteParts_intercalate (convention : Convention) (noWord : isWord mark = false)
    (pieces : List Text) :
    convention.rewriteParts (Part.ofWords isWord (List.intercalate [mark] pieces)) =
      List.intercalate [mark]
        (pieces.map fun piece => convention.rewriteParts (Part.ofWords isWord piece)) := by
  induction pieces with
  | nil => rfl
  | cons piece pieces ih =>
      cases pieces with
      | nil => simp
      | cons next pieces =>
          have apart := Part.interchangeable_ofWords_append noWord piece
            (List.intercalate [mark] (next :: pieces))
          rw [List.intercalate_cons_cons, List.append_assoc, List.singleton_append,
            apart.content, rewriteParts_append, rewriteParts_other, ih]
          simp only [List.map_cons, List.intercalate_cons_cons, List.append_assoc]

theorem changes_intercalate (convention : Convention) (noWord : isWord mark = false)
    (pieces : List Text) :
    convention.changes (Part.ofWords isWord (List.intercalate [mark] pieces)) =
      pieces.flatMap fun piece => convention.changes (Part.ofWords isWord piece) := by
  induction pieces with
  | nil => rfl
  | cons piece pieces ih =>
      cases pieces with
      | nil => simp
      | cons next pieces =>
          have apart := Part.interchangeable_ofWords_append noWord piece
            (List.intercalate [mark] (next :: pieces))
          rw [List.intercalate_cons_cons, List.append_assoc, List.singleton_append,
            apart.changes, changes_append, changes_other, ih]
          rfl

theorem get?_changes_iff {parts : List Part} {name new : Text} :
    (Index.ofList (convention.changes parts)).get? name = some new ↔
      (name, new) ∈ convention.changes parts := by
  rw [Index.get?_ofList, find_changes_eq_some_iff, pair_mem_changes_iff]

end Convention

/-! ## Separators in running text -/

namespace Config

variable {config : Config}

/-- Running text is rewritten between its separators, taken from the left, as if each piece stood
alone.  The new pieces are joined by the separator, the replacements add up, and what is recorded of
the pieces is recorded of the text.  The placeholder has to be one that no capital brings in, as the
usual one is; the settings are not checked apart from that. -/
theorem rewrite_piecewise (config : Config) (running : config.mode = .text)
    (allowed : isPlaceholder config.placeholder = true) (unmarked : config.placeholder ∉ marks)
    (nonempty : config.separator ≠ []) {content : Text} (absent : config.placeholder ∉ content) :
    ∃ pieces rewrite,
      (∀ others, Text.FallsInto config.separator content others ↔ others = pieces) ∧
      config.rewrite content = .ok rewrite ∧
      rewrite.content = List.intercalate config.separator
        (pieces.map fun piece => (config.rewriteBy Mode.text.parts piece).content) ∧
      rewrite.replacements =
        (pieces.map fun piece => (config.rewriteBy Mode.text.parts piece).replacements).sum ∧
      ∀ name new, rewrite.renames.get? name = some new ↔
        ∃ piece ∈ pieces,
          (config.rewriteBy Mode.text.parts piece).renames.get? name = some new := by
  have noWord : Character.isTextWord config.placeholder = false := by
    rw [Character.isTextWord, isWord_eq_false_of_isPlaceholder allowed, Bool.false_and]
  have rewritten : config.rewrite content = .ok
      { config.rewriteBy Mode.text.parts (config.conceal content) with
        content := config.restore
          (config.rewriteParts (Mode.text.parts (config.conceal content))) } := by
    have passes := Guard.protect_of_not_mem absent
    rw [rewrite, rewriteContent, running]
    exact Guard.rewriteContentBy_of_protect passes config.toConvention Mode.text.parts
  have contents := config.toConvention.rewriteParts_intercalate noWord (config.pieces content)
  have changes := config.toConvention.changes_intercalate noWord (config.pieces content)
  refine ⟨config.pieces content, _, fun others => Text.fallsInto_iff nonempty, rewritten, ?_, ?_,
    ?_⟩
  · have free : ∀ new ∈ (config.pieces content).map fun piece =>
        config.rewriteParts (Mode.text.parts piece), config.placeholder ∉ new := by
      intro new member
      obtain ⟨piece, inContent, rfl⟩ := List.mem_map.mp member
      exact Convention.not_mem_rewriteParts (isWord_eq_false_of_isPlaceholder allowed) unmarked
        (config.not_mem_of_mem_pieces absent inContent)
    exact (congrArg config.restore contents).trans (config.restore_intercalate free)
  · exact (congrArg List.length changes).trans List.length_flatMap
  · intro name new
    simp only [Convention.rewriteBy, Convention.get?_changes_iff]
    rw [← List.mem_flatMap]
    exact Iff.of_eq (congrArg ((name, new) ∈ ·) changes)

/-- A configuration for running text whose separator consists of underscores. -/
def underscored : Config :=
  { unfiltered [] .text with separator := ['_', '_'] }

/-- All of the text is one run of word characters.  The separators cut it into four pieces, the
second of which is empty. -/
theorem rewrite_piecewise_underscored :
    ∃ rewrite, underscored.rewrite "x_y____a_b__x_y".toList = .ok rewrite ∧
      rewrite.content = "XY____a_B__XY".toList ∧ rewrite.replacements = 3 ∧
      rewrite.renames.get? "a_b".toList = some "a_B".toList := by
  have absent : underscored.placeholder ∉ "x_y____a_b__x_y".toList := by decide
  have cut : underscored.pieces "x_y____a_b__x_y".toList =
      ["x_y".toList, [], "a_b".toList, "x_y".toList] := by
    cbv
  obtain ⟨pieces, rewrite, only, rewritten, content, count, recorded⟩ :=
    rewrite_piecewise underscored rfl (by decide) (by decide) (by decide) absent
  have same : pieces = ["x_y".toList, [], "a_b".toList, "x_y".toList] := by
    rw [← cut]
    exact ((only _).mp (Text.fallsInto_cutAt (by decide) _)).symm
  subst same
  refine ⟨rewrite, rewritten, ?_, ?_, ?_⟩
  · rw [content]
    cbv
  · rw [count]
    cbv
  · exact (recorded _ _).mpr ⟨"a_b".toList, by simp, by cbv⟩

end Config

end Recase
