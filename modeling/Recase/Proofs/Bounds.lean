import Recase.Proofs.Relexing
import Recase.Proofs.Words
import Mathlib

/-!
# Bounds of names

In both modes a name is as long as can be: it consists of word characters, and none follows it.
What a rewriting does at a name can therefore not reach into what stands behind it, which begins
with a character that is kept.
-/

namespace Recase

open Character (isWord isWordStart isBlank)

/-! ## Bounded names -/

namespace Part

/-- Parts among which every name consists of word characters and does not go on behind. -/
inductive Bounded (isWord : Char → Bool) : List Part → Prop where
  | nil : Bounded isWord []
  | name {text : Text} {parts : List Part} (allWord : ∀ c ∈ text, isWord c = true)
      (ends : EndsWord isWord (join parts)) (behind : Bounded isWord parts) :
      Bounded isWord ({ isName := true, text } :: parts)
  | other {text : Text} {parts : List Part} (behind : Bounded isWord parts) :
      Bounded isWord ({ isName := false, text } :: parts)

theorem Bounded.push {isWord : Char → Bool} {c : Char} (noWord : isWord c = false)
    {parts : List Part} (bounded : Bounded isWord parts) :
    Bounded isWord (Part.push isWord c parts) := by
  cases bounded with
  | nil =>
      rw [Part.push, noWord]
      exact .other .nil
  | name allWord ends behind =>
      rw [Part.push, noWord]
      exact .other (.name allWord ends behind)
  | other behind =>
      rw [Part.push, noWord]
      exact .other behind

/-- The words of running text are bounded. -/
theorem bounded_ofWords (isWord : Char → Bool) (text : Text) :
    Bounded isWord (ofWords isWord text) := by
  induction text using wordInduction isWord with
  | nil => exact .nil
  | other c rest noWord ih =>
      rw [ofWords_cons]
      exact ih.push noWord
  | word word rest nonempty allWord ends ih =>
      rw [ofWords_word nonempty allWord ends]
      refine .name allWord ?_ ih
      rwa [join_ofWords]

theorem join_ofToken (tokens : List Token) : join (tokens.map ofToken) = Token.render tokens := by
  simp [join, Token.render, List.flatMap_map, ofToken]

/-- The identifiers of a source text are bounded. -/
theorem bounded_tokensFrom (context : LineContext) (text : Text) :
    Bounded isWord ((Token.tokensFrom context text).map ofToken) := by
  fun_induction Token.tokensFrom context text with
  | case1 => exact .nil
  | case2 context first rest token ih =>
      rw [List.map_cons]
      by_cases identifier : token.kind = .identifier
      · obtain ⟨starts, -, -, value⟩ := Token.scan_of_identifier identifier
        have extent : token.text = first :: rest.takeWhile isWord ∧
            (Token.next context first rest).2 = rest.dropWhile isWord := by
          simp only [token, Token.next, value, and_self]
        have name : ofToken token = { isName := true, text := token.text } := by
          simp [ofToken, identifier]
        rw [name]
        refine .name ?_ ?_ ih
        · intro c member
          rw [extent.1] at member
          rcases List.mem_cons.mp member with rfl | member
          · exact Character.isWord_of_isWordStart starts
          · exact List.mem_takeWhile_imp member
        · rw [join_ofToken, Token.render_tokensFrom, extent.2]
          exact .dropWhile isWord rest
      · have other : ofToken token = { isName := false, text := token.text } := by
          simp [ofToken, identifier]
        rw [other]
        exact .other ih

end Part

namespace Mode

/-- The characters that names consist of. -/
def isWord : Mode → Char → Bool
  | .lexical => Character.isWord
  | .text => Character.isTextWord

theorem isWord_of_isWord {mode : Mode} {c : Char} (inWord : mode.isWord c = true) :
    Character.isWord c = true := by
  cases mode with
  | lexical => exact inWord
  | text => exact Character.isWord_of_isTextWord inWord

theorem isWord_eq_false (mode : Mode) {c : Char} (noWord : Character.isWord c = false) :
    mode.isWord c = false := by
  by_contra inName
  rw [isWord_of_isWord (Bool.of_not_eq_false inName)] at noWord
  cases noWord

theorem isWord_underscore (mode : Mode) : mode.isWord '_' = true := by
  cases mode <;> decide

/-- In both modes names are bounded. -/
theorem bounded_parts (mode : Mode) (text : Text) : Part.Bounded mode.isWord (mode.parts text) := by
  cases mode with
  | lexical => exact Part.bounded_tokensFrom .initial text
  | text => exact Part.bounded_ofWords Character.isTextWord text

end Mode

/-! ## Rewriting bounded names -/

namespace Convention

variable {convention : Convention} {isWord : Char → Bool}

theorem rewriteParts_other (text : Text) (parts : List Part) :
    convention.rewriteParts ({ isName := false, text } :: parts) =
      text ++ convention.rewriteParts parts := by
  simp [rewriteParts, rewritten, change?]

theorem changes_other (text : Text) (parts : List Part) :
    convention.changes ({ isName := false, text } :: parts) = convention.changes parts := by
  simp [changes, change?]

theorem changes_name_of_some {word new : Text} (renamed : convention.rename? word = some new)
    (parts : List Part) :
    convention.changes ({ isName := true, text := word } :: parts) =
      (word, new) :: convention.changes parts := by
  simp [changes, change?, renamed]

/-- A text that does not begin with a word begins with the same character once it is rewritten. -/
theorem head?_rewriteParts {parts : List Part} (bounded : Part.Bounded isWord parts)
    (ends : EndsWord isWord (Part.join parts)) :
    (convention.rewriteParts parts).head? = (Part.join parts).head? := by
  induction bounded with
  | nil => rfl
  | @name text parts allWord nameEnds behind ih =>
      cases text with
      | nil =>
          have same : convention.rename? [] = none := rename?_of_not_mem List.not_mem_nil
          rw [rewriteParts_name, same]
          exact ih nameEnds
      | cons c text =>
          have inWord := allWord c (by simp)
          rw [ends c rfl] at inWord
          cases inWord
  | @other text parts behind ih =>
      rw [rewriteParts_other, Part.join_cons]
      cases text with
      | nil =>
          apply ih
          intro c head
          apply ends c
          rw [Part.join_cons, List.nil_append, head]
      | cons c text => rfl

end Convention

end Recase
