import Recase.Proofs.Tokens
import Mathlib

/-!
# Numerals in front of names

An identifier goes on as far as there are word characters, and in general none stands in front of
it: it is a longest run of word characters.  The exception are numerals.  No identifier begins with
one, and so it may begin behind a numeral, within a word.  All other tokens either end with a
character that belongs to no word or do not go on with a word.
-/

namespace Recase

open Character (isWord isWordStart isBlank isNumeric isRecent isTextWord)
open Token (scan next tokenize render)

/-! ## Longest runs -/

/-- Whether a text is a longest run of word characters between two others. -/
structure IsRun (isWord : Char → Bool) (before word behind : Text) : Prop where
  nonempty : word ≠ []
  inWord : ∀ c ∈ word, isWord c = true
  begins : ∀ c, before.getLast? = some c → isWord c = false
  ends : EndsWord isWord behind

namespace IsRun

variable {before word behind : Text}

theorem alone {isWord : Char → Bool} (nonempty : word ≠ [])
    (inWord : ∀ c ∈ word, isWord c = true) : IsRun isWord [] word [] := by
  refine ⟨nonempty, inWord, ?_, .nil⟩
  intro c last
  cases last

/-- A longest run is one of the names of the text. -/
theorem ofWords_append {isWord : Char → Bool} (run : IsRun isWord before word behind) :
    Part.ofWords isWord (before ++ (word ++ behind)) =
      Part.ofWords isWord before ++
        { isName := true, text := word } :: Part.ofWords isWord behind := by
  have begins := run.begins
  induction before with
  | nil => exact Part.ofWords_word run.nonempty run.inWord run.ends
  | cons c before ih =>
      rw [List.cons_append, Part.ofWords_cons, Part.ofWords_cons]
      cases before with
      | nil =>
          rw [List.nil_append, Part.ofWords_word run.nonempty run.inWord run.ends]
          simp [Part.push, Part.ofWords, begins c rfl]
      | cons d before =>
          have later : ∀ last, (d :: before).getLast? = some last → isWord last = false :=
            fun last atEnd => begins last (by rw [List.getLast?_cons_cons, atEnd])
          rw [ih ⟨run.nonempty, run.inWord, later, run.ends⟩ later]
          obtain ⟨text, parts, split⟩ := Part.exists_ofWords_cons isWord d before
          rw [split, List.cons_append, Part.push, Part.push]
          split <;> rfl

theorem ofText (run : IsRun isWord before word behind)
    (old : ∀ c ∈ word, isRecent c = false) : IsRun isTextWord before word behind := by
  have noText {c : Char} (noWord : isWord c = false) : isTextWord c = false := by
    rw [isTextWord, noWord, Bool.false_and]
  refine ⟨run.nonempty, fun c member => ?_, fun c last => noText (run.begins c last),
    fun c head => noText (run.ends c head)⟩
  rw [isTextWord, run.inWord c member, old c member]
  rfl

end IsRun

/-- A word character that cannot begin an identifier is a numeral. -/
theorem Character.isNumeric_of_isWord {c : Char} (inWord : isWord c = true)
    (noStart : ¬ isWordStart c = true) : isNumeric c = true := by
  simp only [isWord, isAlphanumeric, isWordStart, Bool.or_eq_true, not_or] at inWord noStart
  exact (inWord.resolve_left noStart.1).resolve_left noStart.2

/-! ## How tokens end -/

namespace Lexeme

/-- Whether a text that has been split off ends with a character that belongs to no word, or does
not go on with a word. -/
def IsClosed (extent : Text × Text) : Prop :=
  (∃ mark, isWord mark = false ∧ [mark] <:+ extent.1) ∨ EndsWord isWord extent.2

theorem IsClosed.append {body behind : Text} (closed : IsClosed (body, behind)) (front : Text) :
    IsClosed (front ++ body, behind) :=
  closed.imp_left fun ⟨mark, noWord, last⟩ =>
    ⟨mark, noWord, last.trans (List.suffix_append front body)⟩

/-- A text that is not closed ends with a word character. -/
theorem isClosed_or_exists_last (first : Char) (rest behind : Text) :
    IsClosed (first :: rest, behind) ∨
      ∃ last, (first :: rest).getLast? = some last ∧ isWord last = true := by
  cases last : (first :: rest).getLast? with
  | none => simp at last
  | some mark =>
      cases inWord : isWord mark with
      | false =>
          left
          exact .inl ⟨mark, inWord, List.singleton_suffix_iff_getLast?_eq_some.mpr last⟩
      | true => exact .inr ⟨mark, rfl, inWord⟩

theorem isClosed_lineComment (previous : Char) (text : Text) :
    IsClosed (lineComment previous text) := by
  fun_induction lineComment previous text with
  | case1 previous => exact .inr .nil
  | case2 rest body after split ih =>
      rw [split] at ih
      exact ih.append ['\r', '\n']
  | case3 previous rest plain => exact .inr (.cons (by decide) ('\n' :: rest))
  | case4 previous c rest notPair ends =>
      rw [ends.1]
      exact .inr (.cons (by decide) rest)
  | case5 previous c rest notPair goesOn body after split ih =>
      rw [split] at ih
      exact ih.append [c]

theorem isClosed_through {needle : Text} {mark : Char} (noWord : isWord mark = false)
    (last : [mark] <:+ needle) (text : Text) : IsClosed (Text.through needle text) := by
  rcases Text.through_suffix_or needle text with found | nothing
  · exact .inl ⟨mark, noWord, last.trans found⟩
  · right
    rw [nothing]
    exact .nil

theorem isClosed_blockComment (text : Text) : IsClosed (blockComment text) := by
  cases text with
  | nil => exact .inr .nil
  | cons star rest =>
      exact (isClosed_through (by decide : isWord '/' = false) ⟨['*'], rfl⟩ rest).append [star]

theorem isClosed_headerName (text : Text) : IsClosed (headerName text) := by
  fun_induction headerName text with
  | case1 => exact .inr .nil
  | case2 rest => exact .inl ⟨'>', by decide, List.suffix_refl _⟩
  | case3 rest notClosed => exact .inr (.cons (by decide) rest)
  | case4 c rest notClosed notEnded body after split ih =>
      rw [split] at ih
      exact ih.append [c]

theorem isClosed_quoted {quote : Char} (noWord : isWord quote = false) (text : Text) :
    IsClosed (quoted quote text) := by
  fun_induction quoted quote text with
  | case1 => exact .inr .nil
  | case2 escaped rest body after split ih =>
      rw [split] at ih
      exact ih.append ['\\', escaped]
  | case3 rest notEscape => exact .inr (.cons (by decide) rest)
  | case4 rest notEscape notEnded => exact .inl ⟨quote, noWord, List.suffix_refl _⟩
  | case5 c rest notEscape notEnded notClosed body after split ih =>
      rw [split] at ih
      exact ih.append [c]

theorem isClosed_rawString {text : Text} {extent : Text × Text}
    (found : rawString text = some extent) : IsClosed extent := by
  by_cases opened : '(' ∈ text
  · obtain ⟨delimiter, rest, rfl, plain⟩ := List.eq_append_cons_of_mem opened
    rw [rawString_append_cons plain] at found
    split at found
    · cases found
      have closed := isClosed_through (by decide : isWord '"' = false)
        (List.suffix_append (')' :: delimiter) ['"']) rest
      simpa using closed.append (delimiter ++ ['('])
    · cases found
  · rw [rawString_of_not_mem opened] at found
    cases found

theorem isClosed_encoded {word text : Text} {extent : Text × Text}
    (found : encoded word text = some extent) : IsClosed extent := by
  rw [encoded.eq_def] at found
  split at found
  · next rest =>
      split at found
      · obtain ⟨raw, rawFound, rfl⟩ := Option.map_eq_some_iff.mp found
        exact (isClosed_rawString rawFound).append ['"']
      · split at found
        · cases found
          exact (isClosed_quoted (by decide) rest).append ['"']
        · cases found
  · next rest =>
      split at found
      · cases found
        exact (isClosed_quoted (by decide) rest).append ['\'']
      · cases found
  · cases found

end Lexeme

namespace Token

/-- Whether a token is a numeral that may begin a word: a number that ends with a word character, or
a numeral that begins neither an identifier nor a number. -/
inductive IsNumeral : Token → Prop where
  | number {token : Token} (number : token.isNumber = true) {last : Char}
      (atEnd : token.text.getLast? = some last) (inWord : isWord last = true) : IsNumeral token
  | sign {c : Char} (numeric : isNumeric c = true) : IsNumeral { kind := .punctuation, text := [c] }

theorem IsNumeral.exists_last {token : Token} (numeral : token.IsNumeral) :
    ∃ last, token.text.getLast? = some last ∧ isWord last = true := by
  cases numeral with
  | number _ atEnd inWord => exact ⟨_, atEnd, inWord⟩
  | @sign c numeric =>
      refine ⟨c, rfl, ?_⟩
      rw [isWord, Character.isAlphanumeric, numeric, Bool.or_true, Bool.or_true]

/-- A token that is followed by a word and ends with a word character is a numeral. -/
theorem isClosed_or_isNumeral (context : LineContext) (first : Char) (rest : Text) :
    Lexeme.IsClosed ((next context first rest).1.text, (next context first rest).2) ∨
      (next context first rest).1.IsNumeral := by
  change Lexeme.IsClosed (first :: (scan context first rest).2.1, (scan context first rest).2.2) ∨
    IsNumeral
      { kind := (scan context first rest).1, text := first :: (scan context first rest).2.1 }
  rw [scan]
  split
  · next blank =>
      left
      apply (Lexeme.isClosed_or_exists_last first _ _).resolve_right
      rintro ⟨last, atEnd, inWord⟩
      have lastBlank : isBlank last = true := by
        rcases List.mem_cons.mp (List.mem_of_getLast? atEnd) with rfl | later
        · exact blank
        · exact List.mem_takeWhile_imp later
      rw [isWord_of_isBlank lastBlank] at inWord
      cases inWord
  split
  · exact .inl ((Lexeme.isClosed_lineComment first rest).append [first])
  split
  · exact .inl ((Lexeme.isClosed_blockComment rest).append [first])
  split
  · next sign =>
      rw [sign.1]
      exact .inl (.inl ⟨'#', by decide, List.suffix_refl ['#']⟩)
  split
  · exact .inl ((Lexeme.isClosed_headerName rest).append [first])
  split
  · dsimp only
    split
    · exact .inl (.inr (.dropWhile isWord rest))
    split
    · next extent found =>
        exact .inl ((Lexeme.isClosed_encoded found).append (first :: rest.takeWhile isWord))
    · exact .inl (.inr (.dropWhile isWord rest))
  next noStart =>
  split
  · next begins =>
      have number : isNumber { kind := .literal, text := first :: (Lexeme.number first rest).1 } =
          true := by
        rcases begins with decimal | ⟨rfl, -⟩
        · simp [isNumber, decimal]
        · simp [isNumber]
      apply (Lexeme.isClosed_or_exists_last first _ _).imp_right
      rintro ⟨last, atEnd, inWord⟩
      exact .number number atEnd inWord
  split
  · next quote =>
      have noWord : isWord first = false := by
        rcases quote with rfl | rfl <;> decide
      exact .inl ((Lexeme.isClosed_quoted noWord rest).append [first])
  · cases inWord : isWord first with
    | false => exact .inl (.inl ⟨first, inWord, List.suffix_refl [first]⟩)
    | true => exact .inr (.sign (Character.isNumeric_of_isWord inWord noStart))

theorem isWord_last_eq_false {source : Text} {before behind : List Token} {token : Token}
    (split : tokenize source = before ++ token :: behind) (noNumeral : ¬ token.IsNumeral)
    {first last : Char} (follows : (render behind).head? = some first)
    (inWord : isWord first = true) (atEnd : token.text.getLast? = some last) :
    isWord last = false := by
  obtain ⟨begin, rest, -, found⟩ := exists_next_of_tokensFrom split
  have closed := isClosed_or_isNumeral (LineContext.initial.behind before) begin rest
  rw [found] at closed
  rcases closed.resolve_right noNumeral with ⟨mark, noWord, lastMark⟩ | ends
  · rw [List.singleton_suffix_iff_getLast?_eq_some, atEnd] at lastMark
    cases lastMark
    exact noWord
  · rw [ends first follows] at inWord
    cases inWord

theorem getLast?_render_concat (tokens : List Token) {token : Token} {last : Char}
    (atEnd : token.text.getLast? = some last) :
    (render (tokens ++ [token])).getLast? = some last := by
  rw [render_append, render_cons, render_nil, List.append_nil, List.getLast?_append, atEnd]
  rfl

/-- An identifier is a longest run of word characters unless a numeral stands in front of it. -/
theorem isRun_iff {source : Text} {before behind : List Token} {token : Token}
    (split : tokenize source = before ++ token :: behind) (identifier : token.kind = .identifier) :
    IsRun isWord (render before) token.text (render behind) ↔
      ∀ last, before.getLast? = some last → ¬ last.IsNumeral := by
  have formed := wellFormed_of_tokenize split
  obtain ⟨shape, ends⟩ := formed.identifier identifier
  have inWord : ∀ c ∈ token.text, isWord c = true :=
    fun c member => Character.isWord_of_isIdentifier shape member
  constructor
  · intro run last atEnd numeral
    obtain ⟨earlier, rfl⟩ := List.getLast?_eq_some_iff.mp atEnd
    obtain ⟨c, textEnd, numeralWord⟩ := numeral.exists_last
    rw [run.begins c (getLast?_render_concat earlier textEnd)] at numeralWord
    cases numeralWord
  · intro free
    refine ⟨formed.nonempty, inWord, ?_, ends⟩
    intro c atEnd
    rcases List.eq_nil_or_concat' before with rfl | ⟨earlier, last, rfl⟩
    · cases atEnd
    · rw [List.append_assoc, List.singleton_append] at split
      obtain ⟨lastInit, lastChar, lastText⟩ :=
        (List.eq_nil_or_concat' last.text).resolve_left (wellFormed_of_tokenize split).nonempty
      have textEnd : last.text.getLast? = some lastChar := by
        rw [lastText, List.getLast?_concat]
      rw [getLast?_render_concat earlier textEnd] at atEnd
      cases atEnd
      obtain ⟨first, tail, text⟩ := List.exists_cons_of_ne_nil formed.nonempty
      have follows : (render (token :: behind)).head? = some first := by
        rw [render_cons, text]
        rfl
      have begins : isWord first = true := inWord first (by rw [text]; exact List.mem_cons_self)
      exact isWord_last_eq_false split (free last List.getLast?_concat) follows begins textEnd

end Token

end Recase
