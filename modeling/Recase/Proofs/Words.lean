import Recase.Proofs.Runs
import Recase.Proofs.Separation
import Mathlib

/-!
# Rewriting running text

Names in running text are its longest runs of word characters.  A rewriting that finds them in this
way leaves its own result alone: no name that it writes is changed again, nor is any of the words
that a name falls into when an upper-case form brings in a character that belongs to no word.
-/

namespace Recase

namespace Convention

variable {isWord : Char → Bool} {convention : Convention}

/-! ## What a rewriting does to a run -/

theorem rewriteParts_push {c : Char} (noWord : isWord c = false) (parts : List Part) :
    convention.rewriteParts (Part.push isWord c parts) = c :: convention.rewriteParts parts := by
  cases parts with
  | nil => simp [Part.push, rewriteParts, rewritten, change?, noWord]
  | cons part parts =>
      rw [Part.push]
      split
      · next same => simp [rewriteParts, rewritten, change?, same, noWord]
      · simp [rewriteParts, rewritten, change?, noWord]

theorem changes_push {c : Char} (noWord : isWord c = false) (parts : List Part) :
    convention.changes (Part.push isWord c parts) = convention.changes parts := by
  cases parts with
  | nil => simp [Part.push, changes, change?, noWord]
  | cons part parts =>
      rw [Part.push]
      split
      · next same => simp [changes, change?, same, noWord]
      · simp [changes, change?, noWord]

theorem rewriteParts_name (word : Text) (parts : List Part) :
    convention.rewriteParts ({ isName := true, text := word } :: parts) =
      (convention.rename? word).getD word ++ convention.rewriteParts parts := by
  cases renamed : convention.rename? word <;>
    simp [rewriteParts, rewritten, change?, renamed]

theorem changes_name_of_none {word : Text} (unchanged : convention.rename? word = none)
    (parts : List Part) :
    convention.changes ({ isName := true, text := word } :: parts) = convention.changes parts := by
  simp [changes, change?, unchanged]

theorem endsWord_rewriteParts (convention : Convention) {rest : Text}
    (ends : EndsWord isWord rest) :
    EndsWord isWord (convention.rewriteParts (Part.ofWords isWord rest)) := by
  cases rest with
  | nil =>
      intro c head
      cases head
  | cons d rest =>
      intro c head
      rw [Part.ofWords_cons, rewriteParts_push (ends d rfl), List.head?_cons] at head
      cases head
      exact ends d rfl

theorem respelt_ofWords (underscore : isWord '_' = true) (backslash : isWord '\\' = false)
    (text : Text) :
    Respelt convention text (convention.rewriteParts (Part.ofWords isWord text)) := by
  induction text using wordInduction isWord with
  | nil => exact .done
  | other c rest noWord ih =>
      rw [Part.ofWords_cons, rewriteParts_push noWord]
      exact .keep c ih
  | word word rest nonempty allWord ends ih =>
      rw [Part.ofWords_word nonempty allWord ends, rewriteParts_name]
      cases renamed : convention.rename? word with
      | none => exact Respelt.keep_append word ih
      | some name =>
          refine .change renamed (fun inside => ?_) (fun head => ?_) ih
          · rw [allWord _ inside] at backslash
            cases backslash
          · rw [ends _ head] at underscore
            cases underscore

/-! ## Settled texts -/

/-- A text whose words are left alone. -/
def IsSettled (convention : Convention) (isWord : Char → Bool) (text : Text) : Prop :=
  convention.changes (Part.ofWords isWord text) = []

theorem IsSettled.cons {c : Char} {rest : Text} (noWord : isWord c = false)
    (settled : convention.IsSettled isWord rest) : convention.IsSettled isWord (c :: rest) := by
  rw [IsSettled, Part.ofWords_cons, changes_push noWord]
  exact settled

theorem IsSettled.word {word rest : Text} (allWord : ∀ c ∈ word, isWord c = true)
    (ends : EndsWord isWord rest) (unchanged : convention.rename? word = none)
    (settled : convention.IsSettled isWord rest) : convention.IsSettled isWord (word ++ rest) := by
  by_cases empty : word = []
  · rw [empty]
    exact settled
  · rw [IsSettled, Part.ofWords_word empty allWord ends, changes_name_of_none unchanged]
    exact settled

/-- Text without underscores in front of a settled text settles. -/
theorem IsSettled.append {plain rest : Text} (noUnderscore : '_' ∉ plain)
    (ends : EndsWord isWord rest) (settled : convention.IsSettled isWord rest) :
    convention.IsSettled isWord (plain ++ rest) := by
  induction plain using wordInduction isWord with
  | nil => exact settled
  | other c plain noWord ih =>
      exact (ih fun member => noUnderscore (List.mem_cons_of_mem c member)).cons noWord
  | word word plain nonempty allWord wordEnds ih =>
      simp only [List.mem_append, not_or] at noUnderscore
      rw [List.append_assoc]
      exact (ih noUnderscore.2).word allWord (wordEnds.append ends)
        (rename?_of_not_mem noUnderscore.1)

theorem IsSettled.newName (letter : isWord 'm' = true) (underscore : isWord '_' = true)
    {name newName rest : Text} (allWord : ∀ c ∈ name, isWord c = true)
    (renamed : convention.rename? name = some newName) (ends : EndsWord isWord rest)
    (settled : convention.IsSettled isWord rest) :
    convention.IsSettled isWord (newName ++ rest) := by
  have behind := settled.append (not_mem_dropWhile letter underscore allWord renamed) ends
  have first := behind.word (fun c member => List.mem_takeWhile_imp member)
    ((EndsWord.dropWhile isWord newName).append ends)
    (rename?_takeWhile letter underscore allWord renamed)
  rwa [← List.append_assoc, List.takeWhile_append_dropWhile] at first

/-- A rewritten text is settled. -/
theorem isSettled_rewriteParts (letter : isWord 'm' = true) (underscore : isWord '_' = true)
    (text : Text) :
    convention.IsSettled isWord (convention.rewriteParts (Part.ofWords isWord text)) := by
  induction text using wordInduction isWord with
  | nil => rfl
  | other c rest noWord ih =>
      rw [Part.ofWords_cons, rewriteParts_push noWord]
      exact ih.cons noWord
  | word word rest nonempty allWord ends ih =>
      have newEnds := convention.endsWord_rewriteParts ends
      rw [Part.ofWords_word nonempty allWord ends, rewriteParts_name]
      cases renamed : convention.rename? word with
      | none => exact ih.word allWord newEnds renamed
      | some name => exact ih.newName letter underscore allWord renamed newEnds

end Convention

/-! ## Rewriting once more -/

/-- A rewritten text is rewritten to itself, whatever its words are made of. -/
theorem rewriteContentBy_ofWords {guard : Guard} {convention : Convention} {isWord : Char → Bool}
    (standard : guard = Config.default.toGuard) (letter : isWord 'm' = true)
    (underscore : isWord '_' = true) (backslash : isWord '\\' = false) {content : Text}
    {once : Rewrite}
    (rewritten : rewriteContentBy guard convention (Part.ofWords isWord) content = .ok once) :
    rewriteContentBy guard convention (Part.ofWords isWord) once.content =
      .ok { content := once.content, replacements := 0, renames := .empty } := by
  obtain ⟨text, -, restored, again⟩ := rewriteContentBy_again standard
    (Convention.respelt_ofWords underscore backslash) rewritten
  have settled := convention.isSettled_rewriteParts letter underscore text
  rw [again, restored, Convention.rewriteBy_of_changes (Part.join_ofWords isWord _) settled]

/-- In running text a second rewriting changes nothing.  This holds for the words that a search for
word characters finds, and just as well for words that hold any letter or number. -/
theorem rewrite_text_again (config : Config) (text : config.mode = .text)
    (standard : config.toGuard = Config.default.toGuard) :
    (∀ content once, config.rewrite content = .ok once →
      config.rewrite once.content =
        .ok { content := once.content, replacements := 0, renames := .empty }) ∧
    (∀ content once,
      rewriteContentBy config.toGuard config.toConvention (Part.ofWords Character.isWord) content =
        .ok once →
      rewriteContentBy config.toGuard config.toConvention (Part.ofWords Character.isWord)
          once.content =
        .ok { content := once.content, replacements := 0, renames := .empty }) := by
  constructor
  · intro content once rewritten
    have parts : config.mode.parts = Part.ofWords Character.isTextWord := by
      rw [text]
      rfl
    rw [Config.rewrite, rewriteContent, parts] at rewritten ⊢
    exact rewriteContentBy_ofWords standard (by decide) (by decide) (by decide) rewritten
  · intro content once rewritten
    exact rewriteContentBy_ofWords standard (by decide) (by decide) (by decide) rewritten

/-- Of the two names one falls into two words, because a combining mark comes in with its
capital. -/
theorem rewrite_text_again_broken_word :
    ∃ once, (Config.unfiltered [] .text).rewrite ['ǰ', '_', 'x', ' ', '_', 'y'] = .ok once ∧
      once.content = ['J', '\u030c', 'X', ' ', 'm', '_', 'Y'] ∧
      (Config.unfiltered [] .text).rewrite once.content =
        .ok { content := once.content, replacements := 0, renames := .empty } := by
  have first : (Config.unfiltered [] .text).rewrite ['ǰ', '_', 'x', ' ', '_', 'y'] =
      .ok { content := ['J', '\u030c', 'X', ' ', 'm', '_', 'Y']
            replacements := 2
            renames := Index.ofList [(['ǰ', '_', 'x'], ['J', '\u030c', 'X']),
              (['_', 'y'], ['m', '_', 'Y'])] } := by
    cbv
  exact ⟨_, first, rfl, (rewrite_text_again (Config.unfiltered [] .text) rfl rfl).1 _ _ first⟩

end Recase
