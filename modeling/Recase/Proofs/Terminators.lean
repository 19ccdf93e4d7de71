import Recase.Proofs.Directives
import Recase.Proofs.Relexing
import Mathlib

/-!
# Where comments and quoted literals end

A comment ends at the first thing that can end a comment of its form, and so does a literal in
quotes.  Where it ends is said here without the lexer, by a condition on the texts in front of a
place and behind it: whether a terminator stands there.  Only the first place counts, and without
one the rest of the source text is taken.

Two of the conditions look back.  A character is escaped by a backslash that is not escaped itself,
and a line feed is spliced by a backslash with nothing but carriage returns in between.
-/

namespace Recase

open Character (isWord isWordStart isBlank)
open Token (scan next tokenize render)

/-! ## Looking back -/

namespace Text

variable {before : Text} {c : Char}

/-- Whether the character behind a text is escaped: the text ends with an odd number of
backslashes. -/
def Escapes (before : Text) : Prop :=
  Odd (before.rtakeWhile (· = '\\')).length

/-- Whether a line feed behind a text is spliced: the last character of the text that is no carriage
return is a backslash. -/
def Splices (before : Text) : Prop :=
  (before.rdropWhile (· = '\r')).getLast? = some '\\'

theorem not_escapes_nil : ¬ Escapes [] := by
  simp [Escapes]

/-- A character is escaped if and only if a backslash precedes it that is not escaped. -/
theorem escapes_concat : Escapes (before ++ [c]) ↔ c = '\\' ∧ ¬ Escapes before := by
  by_cases backslash : c = '\\'
  · simp [Escapes, backslash, Nat.odd_add_one]
  · simp [Escapes, backslash]

/-- No other character at the beginning of a text has an effect on what the text escapes. -/
theorem escapes_cons (plain : c ≠ '\\') : Escapes (c :: before) ↔ Escapes before := by
  induction before using List.reverseRecOn with
  | nil =>
      have alone : Escapes ([] ++ [c]) ↔ c = '\\' ∧ ¬ Escapes [] := escapes_concat
      simpa [not_escapes_nil, plain] using alone
  | append_singleton before d ih => rw [← List.cons_append, escapes_concat, escapes_concat, ih]

/-- Nor does a backslash with the character that it escapes. -/
theorem escapes_backslash_cons : Escapes ('\\' :: c :: before) ↔ Escapes before := by
  induction before using List.reverseRecOn with
  | nil =>
      have single : Escapes ['\\'] := escapes_concat.mpr ⟨rfl, not_escapes_nil⟩
      have pair : Escapes (['\\'] ++ [c]) ↔ c = '\\' ∧ ¬ Escapes ['\\'] := escapes_concat
      exact iff_of_false (fun escapes => (pair.mp escapes).2 single) not_escapes_nil
  | append_singleton before d ih =>
      rw [← List.cons_append, ← List.cons_append, escapes_concat, escapes_concat, ih]

theorem splices_concat : Splices (before ++ [c]) ↔ c = '\\' ∨ c = '\r' ∧ Splices before := by
  by_cases carriage : c = '\r'
  · simp [Splices, carriage]
  · simp [Splices, carriage]

theorem splices_singleton : Splices [c] ↔ c = '\\' := by
  have nothing : ¬ Splices [] := by simp [Splices]
  have alone : Splices ([] ++ [c]) ↔ c = '\\' ∨ c = '\r' ∧ Splices [] := splices_concat
  simpa [nothing] using alone

/-- What stands in front of a character other than a carriage return does not splice. -/
theorem splices_append_cons (noReturn : c ≠ '\r') (front : Text) :
    Splices (front ++ c :: before) ↔ Splices (c :: before) := by
  induction before using List.reverseRecOn with
  | nil =>
      rw [splices_concat, splices_singleton]
      simp [noReturn]
  | append_singleton before d ih =>
      rw [← List.cons_append, ← List.append_assoc, splices_concat, splices_concat, ih]

theorem splices_cons_return : Splices (c :: '\r' :: before) ↔ Splices (c :: before) := by
  induction before using List.reverseRecOn with
  | nil =>
      have pair : Splices ([c] ++ ['\r']) ↔ '\r' = '\\' ∨ '\r' = '\r' ∧ Splices [c] :=
        splices_concat
      simpa using pair
  | append_singleton before d ih =>
      rw [← List.cons_append, ← List.cons_append, splices_concat, ← List.cons_append,
        splices_concat, ih]

end Text

/-! ## Terminators -/

/-- What ends a comment or a literal: whether it stands between two texts, and how much is taken if
it stands there. -/
structure Terminator where
  Stands : Text → Text → Prop
  taken : Text → Text → Text

namespace Terminator

/-- How much a comment or a literal takes of a text with a terminator: as much as the first place
where the terminator stands allows, and all if there is none. -/
inductive Takes (terminator : Terminator) : Text → Text → Prop where
  | ended {before behind : Text} (stands : terminator.Stands before behind)
      (first : ∀ left right, left ++ right = before ++ behind → terminator.Stands left right →
        before.length ≤ left.length) :
      Takes terminator (before ++ behind) (terminator.taken before behind)
  | unended {text : Text} (never : ∀ left right, left ++ right = text →
      ¬ terminator.Stands left right) : Takes terminator text text

variable {terminator other : Terminator} {text part otherPart : Text} {c : Char}

theorem Takes.unique (takes : terminator.Takes text part)
    (otherwise : terminator.Takes text otherPart) : otherPart = part := by
  cases takes with
  | @ended before behind stands first =>
      generalize same : before ++ behind = text at otherwise
      cases otherwise with
      | @ended otherBefore otherBehind otherStands otherFirst =>
          have lengths : before.length = otherBefore.length :=
            Nat.le_antisymm (first _ _ same.symm otherStands) (otherFirst _ _ same stands)
          obtain ⟨rfl, rfl⟩ := List.append_inj same lengths
          rfl
      | unended never => exact absurd stands (never before behind same)
  | unended never =>
      cases otherwise with
      | ended stands first => exact absurd stands (never _ _ rfl)
      | unended => rfl

theorem Takes.iff_eq (takes : terminator.Takes text part) :
    terminator.Takes text otherPart ↔ otherPart = part := by
  constructor
  · exact takes.unique
  · rintro rfl
    exact takes

theorem Takes.atOnce (terminator : Terminator) (behind : Text)
    (stands : terminator.Stands [] behind) :
    terminator.Takes behind (terminator.taken [] behind) :=
  .ended stands fun left _ _ _ => Nat.zero_le left.length

/-- If a terminator stands nowhere in front of a text, then it is looked for in the text, with regard
to what is in front. -/
theorem Takes.behind (front : Text) (takes : other.Takes text part)
    (elsewhere : ∀ left right, left ++ right = front → right ≠ [] →
      ¬ terminator.Stands left (right ++ text))
    (shifted : ∀ before behind, terminator.Stands (front ++ before) behind ↔
      other.Stands before behind)
    (moved : ∀ before behind, before ++ behind = text → other.Stands before behind →
      terminator.taken (front ++ before) behind = front ++ other.taken before behind) :
    terminator.Takes (front ++ text) (front ++ part) := by
  have within {left right : Text} (split : left ++ right = front ++ text)
      (stands : terminator.Stands left right) :
      ∃ later, left = front ++ later ∧ later ++ right = text := by
    rcases List.append_eq_append_iff.mp split with ⟨inner, rfl, rfl⟩ | ⟨later, rfl, rfl⟩
    · by_cases nothing : inner = []
      · subst nothing
        exact ⟨[], by simp, rfl⟩
      · exact absurd stands (elsewhere left inner rfl nothing)
    · exact ⟨later, rfl, rfl⟩
  cases takes with
  | @ended before behind stands first =>
      rw [← moved before behind rfl stands, ← List.append_assoc]
      refine .ended ((shifted before behind).mpr stands) ?_
      intro left right split leftStands
      rw [List.append_assoc] at split
      obtain ⟨later, rfl, inside⟩ := within split leftStands
      have bound := first later right inside ((shifted later right).mp leftStands)
      simpa using bound
  | unended never =>
      refine .unended ?_
      intro left right split leftStands
      obtain ⟨later, rfl, inside⟩ := within split leftStands
      exact never later right inside ((shifted later right).mp leftStands)

theorem Takes.nil (nowhere : ¬ terminator.Stands [] []) : terminator.Takes [] [] := by
  refine .unended ?_
  intro left right split
  obtain ⟨rfl, rfl⟩ := List.append_eq_nil_iff.mp split
  exact nowhere

theorem Takes.cons (takes : other.Takes text part) (elsewhere : ¬ terminator.Stands [] (c :: text))
    (shifted : ∀ before behind, terminator.Stands (c :: before) behind ↔ other.Stands before behind)
    (moved : ∀ before behind, before ++ behind = text → other.Stands before behind →
      terminator.taken (c :: before) behind = c :: other.taken before behind) :
    terminator.Takes (c :: text) (c :: part) := by
  refine takes.behind [c] ?_ shifted moved
  intro left right split nonempty
  rcases List.append_eq_singleton_iff.mp split with ⟨rfl, rfl⟩ | ⟨-, rfl⟩
  · exact elsewhere
  · exact absurd rfl nonempty

theorem Takes.cons_cons {d : Char} (takes : other.Takes text part)
    (notFirst : ¬ terminator.Stands [] (c :: d :: text))
    (notSecond : ¬ terminator.Stands [c] (d :: text))
    (shifted : ∀ before behind, terminator.Stands (c :: d :: before) behind ↔
      other.Stands before behind)
    (moved : ∀ before behind, before ++ behind = text → other.Stands before behind →
      terminator.taken (c :: d :: before) behind = c :: d :: other.taken before behind) :
    terminator.Takes (c :: d :: text) (c :: d :: part) := by
  refine takes.behind [c, d] ?_ shifted moved
  intro left right split nonempty
  rcases List.append_eq_cons_iff.mp split with ⟨rfl, rfl⟩ | ⟨inner, rfl, others⟩
  · exact notFirst
  · rcases List.append_eq_singleton_iff.mp others.symm with ⟨rfl, rfl⟩ | ⟨-, rfl⟩
    · exact notSecond
    · exact absurd rfl nonempty

/-! ### Closing marks -/

/-- A closing mark, which is taken with the text in front of it. -/
def mark (closing : Text) : Terminator where
  Stands _ behind := closing <+: behind
  taken before _ := before ++ closing

/-- The search for a mark stops at the first one. -/
theorem takes_through (closing text : Text) :
    (mark closing).Takes text (Text.through closing text).1 := by
  induction text with
  | nil =>
      by_cases empty : closing = []
      · subst empty
        exact .atOnce (mark []) [] List.nil_prefix
      · exact .nil fun stands => empty (List.prefix_nil.mp stands)
  | cons c rest ih =>
      rw [Text.through]
      split
      · next found =>
          exact .atOnce (mark closing) (c :: rest) (List.isPrefixOf_iff_prefix.mp found)
      · next absent =>
          refine ih.cons ?_ ?_ ?_
          · exact fun stands => absent (List.isPrefixOf_iff_prefix.mpr stands)
          · exact fun _ _ => Iff.rfl
          · exact fun _ _ _ _ => rfl

/-! ### Closing quotes -/

/-- A closing quote that is not escaped, which is taken too, or a line feed that is not escaped, in
front of which a literal ends unclosed. -/
def quote (closing : Char) : Terminator where
  Stands before behind :=
    (behind.head? = some closing ∨ behind.head? = some '\n') ∧ ¬ before.Escapes
  taken before behind := if behind.head? = some closing then before ++ [closing] else before

theorem not_stands_quote {closing : Char} (noQuote : c ≠ closing) (noLineFeed : c ≠ '\n')
    (before rest : Text) : ¬ (quote closing).Stands before (c :: rest) := by
  simp [quote, noQuote, noLineFeed]

theorem taken_quote_append (closing : Char) (front before behind : Text) :
    (quote closing).taken (front ++ before) behind =
      front ++ (quote closing).taken before behind := by
  by_cases closes : behind.head? = some closing <;> simp [quote, closes]

/-- A literal in quotes ends at the first quote or line feed that is not escaped. -/
theorem takes_quoted {closing : Char} (plain : closing ≠ '\\') (noLineFeed : closing ≠ '\n')
    (text : Text) : (quote closing).Takes text (Lexeme.quoted closing text).1 := by
  have backslash (before rest : Text) : ¬ (quote closing).Stands before ('\\' :: rest) :=
    not_stands_quote plain.symm (by decide) before rest
  fun_induction Lexeme.quoted closing text with
  | case1 => exact .nil (by simp [quote])
  | case2 escaped rest body after split ih =>
      rw [split] at ih
      refine ih.cons_cons (backslash [] _) ?_ ?_ ?_
      · intro stands
        exact stands.2 (Text.escapes_concat.mpr ⟨rfl, Text.not_escapes_nil⟩)
      · intro before behind
        exact and_congr_right fun _ => not_congr Text.escapes_backslash_cons
      · intro before behind _ _
        exact taken_quote_append closing ['\\', escaped] before behind
  | case3 rest noEscape =>
      have taken : (quote closing).taken [] ('\n' :: rest) = [] := by
        simp [quote, noLineFeed.symm]
      have takes := Takes.atOnce (quote closing) ('\n' :: rest)
        ⟨.inr rfl, Text.not_escapes_nil⟩
      rwa [taken] at takes
  | case4 rest noEscape _ =>
      have taken : (quote closing).taken [] (closing :: rest) = [closing] := by
        simp [quote]
      have takes := Takes.atOnce (quote closing) (closing :: rest)
        ⟨.inl rfl, Text.not_escapes_nil⟩
      rwa [taken] at takes
  | case5 c rest noEscape otherChar noQuote body after split ih =>
      rw [split] at ih
      by_cases last : c = '\\'
      · subst last
        obtain rfl : rest = [] := by
          by_contra more
          obtain ⟨d, tail, rfl⟩ := List.exists_cons_of_ne_nil more
          exact noEscape d tail rfl rfl
        cases split
        refine .unended ?_
        intro left right split
        rcases List.append_eq_singleton_iff.mp split with ⟨rfl, rfl⟩ | ⟨rfl, rfl⟩
        · exact backslash [] []
        · simp [quote]
      · refine ih.cons (not_stands_quote noQuote otherChar [] rest) ?_ ?_
        · intro before behind
          exact and_congr_right fun _ => not_congr (Text.escapes_cons last)
        · intro before behind _ _
          exact taken_quote_append closing [c] before behind

/-! ### Ends of lines -/

/-- A line feed that is not spliced, given the character in front of the text.  It is not taken, nor
is a carriage return right in front of it. -/
def lineEnd (previous : Char) : Terminator where
  Stands before behind := behind.head? = some '\n' ∧ ¬ Text.Splices (previous :: before)
  taken before _ := if before.getLast? = some '\r' then before.dropLast else before

theorem taken_lineEnd_cons {before : Text} (kept : before ≠ [] ∨ c ≠ '\r') (previous other : Char)
    (behind : Text) :
    (lineEnd previous).taken (c :: before) behind = c :: (lineEnd other).taken before behind := by
  cases before with
  | nil =>
      have noReturn : c ≠ '\r' := kept.resolve_left (absurd rfl)
      simp [lineEnd, noReturn]
  | cons d before =>
      simp only [lineEnd, List.getLast?_cons_cons, List.dropLast_cons_cons]
      split <;> rfl

/-- A comment to the end of the line ends at the first line feed that is not spliced. -/
theorem takes_lineComment (previous : Char) (text : Text) :
    (lineEnd previous).Takes text (Lexeme.lineComment previous text).1 := by
  fun_induction Lexeme.lineComment previous text with
  | case1 previous => exact .nil (by simp [lineEnd])
  | case2 rest body after split ih =>
      rw [split] at ih
      refine ih.cons_cons (by simp [lineEnd]) ?_ ?_ ?_
      · intro stands
        exact stands.2 (Text.splices_cons_return.mpr (Text.splices_singleton.mpr rfl))
      · intro before behind
        exact and_congr_right fun _ =>
          not_congr (Text.splices_append_cons (by decide) ['\\', '\r'])
      · intro before behind _ _
        have carriage : (lineEnd '\\').taken ('\r' :: '\n' :: before) behind =
            '\r' :: (lineEnd '\n').taken ('\n' :: before) behind :=
          taken_lineEnd_cons (.inl (List.cons_ne_nil _ _)) _ _ _
        have lineFeed : (lineEnd '\n').taken ('\n' :: before) behind =
            '\n' :: (lineEnd '\n').taken before behind :=
          taken_lineEnd_cons (.inr (by decide)) _ _ _
        rw [carriage, lineFeed]
  | case3 previous rest plain =>
      have unspliced : ¬ Text.Splices [previous, '\r'] := fun splices =>
        plain (Text.splices_singleton.mp (Text.splices_cons_return.mp splices))
      have takes : (lineEnd previous).Takes (['\r'] ++ '\n' :: rest)
          ((lineEnd previous).taken ['\r'] ('\n' :: rest)) := by
        refine .ended ⟨rfl, unspliced⟩ ?_
        intro left right split stands
        cases left with
        | nil =>
            rw [List.nil_append] at split
            subst split
            simp [lineEnd] at stands
        | cons d left => simp
      exact takes
  | case4 previous c rest notPair ends =>
      obtain ⟨rfl, plain⟩ := ends
      exact .atOnce (lineEnd previous) ('\n' :: rest)
        ⟨rfl, fun splices => plain (Text.splices_singleton.mp splices)⟩
  | case5 previous c rest notPair goesOn body after split ih =>
      rw [split] at ih
      refine ih.cons ?_ ?_ ?_
      · rintro ⟨head, unspliced⟩
        have lineFeed : c = '\n' := by simpa using head
        exact goesOn ⟨lineFeed, fun backslash =>
          unspliced (Text.splices_singleton.mpr backslash)⟩
      · intro before behind
        refine and_congr_right fun _ => not_congr ?_
        by_cases carriage : c = '\r'
        · rw [if_pos carriage, carriage]
          exact Text.splices_cons_return
        · rw [if_neg carriage]
          exact Text.splices_append_cons carriage [previous]
      · intro before behind parts stands
        refine taken_lineEnd_cons ?_ _ _ _
        by_contra! alone
        obtain ⟨rfl, rfl⟩ := alone
        obtain ⟨tail, rfl⟩ := List.head?_eq_some_iff.mp stands.1
        exact notPair tail rfl parts.symm

end Terminator

/-! ## Openings -/

/-- Whether a text may stand between the quote and the parenthesis that open a raw string. -/
structure Text.IsRawDelimiter (delimiter : Text) : Prop where
  short : byteCount delimiter ≤ 16
  allowed : ∀ c ∈ delimiter, isBlank c = false ∧ c ∉ ['(', ')', '\\', '"']

theorem Text.isRawDelimiter_iff {delimiter : Text} :
    delimiter.IsRawDelimiter ↔ '(' ∉ delimiter ∧ Lexeme.isDelimiter delimiter = true := by
  rw [Lexeme.isDelimiter, Bool.and_eq_true, decide_eq_true_eq, List.all_eq_true]
  constructor
  · rintro ⟨short, allowed⟩
    refine ⟨fun member => (allowed '(' member).2 (by simp), short, ?_⟩
    intro c member
    obtain ⟨noBlank, plain⟩ := allowed c member
    simp_all
  · rintro ⟨unopened, short, allowed⟩
    refine ⟨short, ?_⟩
    intro c member
    have plain := allowed c member
    have different : c ≠ '(' := by
      rintro rfl
      exact unopened member
    simp_all

/-- What a comment or a literal in quotes begins with: two slashes, a slash and a star, a quote with
or without an encoding word, or all that opens a raw string. -/
inductive Opening where
  | line
  | block
  | quoted (encoding : Text) (quote : Char) (known : encoding = [] ∨ encoding ∈ Lexeme.encodings)
      (isQuote : quote = '"' ∨ quote = '\'')
  | raw (encoding delimiter : Text) (known : encoding ∈ Lexeme.rawEncodings)
      (allowed : delimiter.IsRawDelimiter)

namespace Opening

/-- The kind of token that is opened. -/
def kind : Opening → Token.Kind
  | line | block => .comment
  | quoted .. | raw .. => .literal

/-- The word that the opening begins with, if any. -/
def encoding : Opening → Text
  | line | block => []
  | quoted encoding _ _ _ | raw encoding _ _ _ => encoding

/-- What stands behind that word. -/
def sign : Opening → Text
  | line => ['/', '/']
  | block => ['/', '*']
  | quoted _ quote _ _ => [quote]
  | raw _ delimiter _ _ => '"' :: delimiter ++ ['(']

/-- The text of the opening. -/
def mark (opening : Opening) : Text :=
  opening.encoding ++ opening.sign

/-- What ends a token that is opened in this way. -/
def terminator : Opening → Terminator
  | line => .lineEnd '/'
  | block => .mark ['*', '/']
  | quoted _ quote _ _ => .quote quote
  | raw _ delimiter _ _ => .mark (')' :: delimiter ++ ['"'])

theorem isIdentifier_encoding (opening : Opening) (worded : opening.encoding ≠ []) :
    Character.isIdentifier opening.encoding = true := by
  have words : ∀ word ∈ Lexeme.encodings ++ Lexeme.rawEncodings,
      Character.isIdentifier word = true := by decide
  cases opening with
  | line | block => exact absurd rfl worded
  | quoted encoding quote known isQuote =>
      exact words encoding (List.mem_append_left _ (known.resolve_left worded))
  | raw encoding delimiter known allowed =>
      exact words encoding (List.mem_append_right _ known)

theorem endsWord_sign (opening : Opening) (worded : opening.encoding ≠ []) (body : Text) :
    EndsWord isWord (opening.sign ++ body) := by
  cases opening with
  | line | block => exact absurd rfl worded
  | quoted encoding quote known isQuote =>
      rcases isQuote with rfl | rfl <;> exact .cons (by decide) body
  | raw encoding delimiter known allowed => exact .cons (by decide) _

end Opening

namespace Lexeme

theorem takes_quoted_of_isQuote {quote : Char} (isQuote : quote = '"' ∨ quote = '\'')
    (text : Text) : (Terminator.quote quote).Takes text (quoted quote text).1 := by
  rcases isQuote with rfl | rfl <;> exact Terminator.takes_quoted (by decide) (by decide) text

/-- An encoding word and what stands behind it are a literal, which ends at its first terminator. -/
theorem encoded_sign (opening : Opening) (worded : opening.encoding ≠ []) (body : Text) :
    ∃ part after, opening.terminator.Takes body part ∧
      encoded opening.encoding (opening.sign ++ body) = some (opening.sign ++ part, after) := by
  cases opening with
  | line | block => exact absurd rfl worded
  | quoted encoding quote known isQuote =>
      have listed : encoding ∈ encodings := known.resolve_left worded
      have notRaw : encoding ∉ rawEncodings := by
        have apart : ∀ word ∈ encodings, word ∉ rawEncodings := by decide
        exact apart encoding listed
      refine ⟨(quoted quote body).1, (quoted quote body).2,
        takes_quoted_of_isQuote isQuote body, ?_⟩
      rcases isQuote with rfl | rfl
      · change encoded encoding ('"' :: body) = _
        rw [encoded, if_neg notRaw, if_pos listed]
        rfl
      · change encoded encoding ('\'' :: body) = _
        rw [encoded, if_pos listed]
        rfl
  | raw encoding delimiter known allowed =>
      obtain ⟨unopened, accepted⟩ := Text.isRawDelimiter_iff.mp allowed
      have raw := rawString_append_cons unopened body
      rw [if_pos accepted] at raw
      have closing := Terminator.takes_through (')' :: delimiter ++ ['"']) body
      refine ⟨_, (Text.through (')' :: delimiter ++ ['"']) body).2, closing, ?_⟩
      change encoded encoding ('"' :: (delimiter ++ ['('] ++ body)) = _
      rw [List.append_assoc, List.singleton_append, encoded, if_pos known, raw]
      simp [Opening.sign]

theorem exists_opening_of_encoded {word text : Text} {extent : Text × Text}
    (found : encoded word text = some extent) :
    ∃ (opening : Opening) (body : Text), opening.kind = .literal ∧
      word ++ text = opening.mark ++ body := by
  rw [encoded.eq_def] at found
  split at found
  · next rest =>
      split at found
      · next raw =>
          obtain ⟨parts, opens, -⟩ := Option.map_eq_some_iff.mp found
          by_cases opened : '(' ∈ rest
          · obtain ⟨delimiter, body, rfl, plain⟩ := List.eq_append_cons_of_mem opened
            rw [rawString_append_cons plain] at opens
            split at opens
            · next accepted =>
                exact ⟨.raw word delimiter raw (Text.isRawDelimiter_iff.mpr ⟨plain, accepted⟩), body,
                  rfl, by simp [Opening.mark, Opening.encoding, Opening.sign]⟩
            · cases opens
          · rw [rawString_of_not_mem opened] at opens
            cases opens
      · split at found
        · next listed =>
            exact ⟨.quoted word '"' (.inr listed) (.inl rfl), rest, rfl,
              by simp [Opening.mark, Opening.encoding, Opening.sign]⟩
        · cases found
  · next rest =>
      split at found
      · next listed =>
          exact ⟨.quoted word '\'' (.inr listed) (.inr rfl), rest, rfl,
            by simp [Opening.mark, Opening.encoding, Opening.sign]⟩
      · cases found
  · cases found

end Lexeme

namespace Token

variable {context : LineContext} {first : Char} {rest body : Text}

/-! ### What an opening begins -/

theorem next_line (context : LineContext) (body : Text) :
    (next context '/' ('/' :: body)).1 =
      { kind := .comment, text := '/' :: '/' :: (Lexeme.lineComment '/' body).1 } := by
  have noBlank : isBlank '/' = false := by decide
  simp [next, scan, noBlank, Lexeme.lineComment.eq_3]

theorem next_block (context : LineContext) (body : Text) :
    (next context '/' ('*' :: body)).1 =
      { kind := .comment, text := '/' :: '*' :: (Text.through ['*', '/'] body).1 } := by
  have noBlank : isBlank '/' = false := by decide
  simp [next, scan, noBlank, Lexeme.blockComment]

/-- An encoding word begins a literal, unless it stands in the place of the name of a directive. -/
theorem next_encoded (opening : Opening) (worded : opening.encoding ≠ [])
    (whole : first :: rest = opening.mark ++ body) :
    (∃ part, opening.terminator.Takes body part ∧
        (next context first rest).1 = { kind := .literal, text := opening.mark ++ part }) ∨
      context.directive = .opened ∧
        (next context first rest).1 = { kind := .punctuation, text := opening.encoding } := by
  obtain ⟨part, after, takes, found⟩ := Lexeme.encoded_sign opening worded body
  have identifier := opening.isIdentifier_encoding worded
  have ends := opening.endsWord_sign worded body
  rw [Opening.mark, List.append_assoc] at whole
  rw [Opening.mark]
  generalize opening.encoding = encoding at *
  cases encoding with
  | nil => exact absurd rfl worded
  | cons c word =>
      rw [List.cons_append] at whole
      obtain ⟨rfl, rfl⟩ := List.cons.inj whole
      obtain ⟨starts, others⟩ := Bool.and_eq_true_iff.mp identifier
      have allWord := List.all_eq_true.mp others
      have noBlank := isBlank_eq_false_of_isWord (Character.isWord_of_isWordStart starts)
      rw [next, scan_word context starts noBlank, ends.takeWhile_append allWord,
        ends.dropWhile_append allWord, found]
      by_cases opened : context.directive = .opened
      · rw [if_pos opened]
        exact .inr ⟨opened, rfl⟩
      · rw [if_neg opened]
        refine .inl ⟨part, takes, ?_⟩
        simp

/-- What an opening begins ends at its first terminator. -/
theorem next_opening (opening : Opening) (whole : first :: rest = opening.mark ++ body) :
    (∃ part, opening.terminator.Takes body part ∧
        (next context first rest).1 = { kind := opening.kind, text := opening.mark ++ part }) ∨
      context.directive = .opened ∧ opening.encoding ≠ [] ∧
        (next context first rest).1 = { kind := .punctuation, text := opening.encoding } := by
  by_cases worded : opening.encoding = []
  · left
    cases opening with
    | line =>
        cases whole
        exact ⟨_, Terminator.takes_lineComment '/' body, next_line context body⟩
    | block =>
        cases whole
        exact ⟨_, Terminator.takes_through ['*', '/'] body, next_block context body⟩
    | quoted encoding quote known isQuote =>
        cases worded
        cases whole
        refine ⟨_, Lexeme.takes_quoted_of_isQuote isQuote body, ?_⟩
        rw [next, scan_quote isQuote]
        rfl
    | raw encoding delimiter known allowed =>
        cases worded
        exact absurd known (by decide)
  · have kind : opening.kind = .literal := by
      cases opening with
      | line | block => exact absurd rfl worded
      | quoted | raw => rfl
    rw [kind]
    exact (next_encoded opening worded whole).imp_right fun named => ⟨named.1, worded, named.2⟩

/-! ### What begins with an opening -/

theorem exists_opening_of_comment (comment : (next context first rest).1.kind = .comment) :
    ∃ (opening : Opening) (body : Text), opening.kind = .comment ∧
      first :: rest = opening.mark ++ body := by
  revert comment
  rw [next, scan]
  split
  · intro other
    cases other
  split
  · next opens =>
      obtain ⟨rfl, head⟩ := opens
      obtain ⟨body, rfl⟩ := List.head?_eq_some_iff.mp head
      exact fun _ => ⟨.line, body, rfl, rfl⟩
  split
  · next opens =>
      obtain ⟨rfl, head⟩ := opens
      obtain ⟨body, rfl⟩ := List.head?_eq_some_iff.mp head
      exact fun _ => ⟨.block, body, rfl, rfl⟩
  dsimp only
  repeat' split
  all_goals
    intro other
    cases other

/-- A literal has an opening, unless it begins as numbers or header names do. -/
theorem exists_opening_of_literal (literal : (next context first rest).1.kind = .literal) :
    (∃ (opening : Opening) (body : Text), opening.kind = .literal ∧
        first :: rest = opening.mark ++ body) ∨
      first.isDigit = true ∨ first = '.' ∨ first = '<' := by
  revert literal
  rw [next, scan]
  iterate 4
    split
    · intro other
      cases other
  split
  · next bracket => exact fun _ => .inr (.inr (.inr bracket.1))
  split
  · dsimp only
    split
    · intro other
      cases other
    split
    · next found =>
        obtain ⟨opening, body, kind, whole⟩ := Lexeme.exists_opening_of_encoded found
        rw [List.cons_append, List.takeWhile_append_dropWhile] at whole
        exact fun _ => .inl ⟨opening, body, kind, whole⟩
    · intro other
      cases other
  split
  · next number => exact fun _ => .inr (number.imp_right fun point => .inl point.1)
  split
  · next isQuote => exact fun _ => .inl ⟨.quoted [] first (.inl rfl) isQuote, rest, rfl, rfl⟩
  · intro other
    cases other

/-! ## Tokens -/

/-- How a token begins that is a comment or a literal, and where it ends, given the source text and
the tokens in front of it.  A comment begins with an opening, and so does a literal that is neither
a number nor a header name.  An opening begins a token that ends at the first terminator, or with
the source text if there is none; an encoding word in the place of the name of a directive begins
nothing. -/
structure Delimited (source : Text) (before : List Token) (token : Token) : Prop where
  comment : token.kind = .comment → ∃ (opening : Opening) (body : Text),
    opening.kind = .comment ∧ source = render before ++ (opening.mark ++ body)
  literal : token.kind = .literal →
    (∃ (opening : Opening) (body : Text),
      opening.kind = .literal ∧ source = render before ++ (opening.mark ++ body)) ∨
    token.isNumber = true ∨ token.text.head? = some '<' ∧ FollowsInclusion before
  terminated : ∀ (opening : Opening) (body : Text),
    source = render before ++ (opening.mark ++ body) →
    (∃ part, token = { kind := opening.kind, text := opening.mark ++ part } ∧
      ∀ other, opening.terminator.Takes body other ↔ other = part) ∨
    FollowsSign before ∧ opening.encoding ≠ [] ∧
      token = { kind := .punctuation, text := opening.encoding }

/-- Comments and literals in quotes begin with an opening and end at their first terminator. -/
theorem tokenize_delimited {source : Text} {before behind : List Token} {token : Token}
    (split : tokenize source = before ++ token :: behind) : Delimited source before token := by
  obtain ⟨first, rest, whole, found⟩ := exists_next_of_tokensFrom split
  have reflects := reflects_tokenize split
  have made : (next (LineContext.initial.behind before) first rest).1 = token :=
    congrArg Prod.fst found
  rw [whole, ← made]
  constructor
  · intro comment
    obtain ⟨opening, body, kind, begins⟩ := exists_opening_of_comment comment
    exact ⟨opening, body, kind, by rw [begins]⟩
  · intro literal
    rcases exists_opening_of_literal literal with
      ⟨opening, body, kind, begins⟩ | digit | point | bracket
    · exact .inl ⟨opening, body, kind, by rw [begins]⟩
    · refine .inr (.inl ?_)
      rw [isNumber, literal]
      simp [next, digit]
    · refine .inr (.inl ?_)
      rw [isNumber, literal]
      simp [next, point]
    · subst bracket
      have inclusion := (kind_next_bracket_iff _ rest).mp literal
      exact .inr (.inr ⟨rfl, reflects.inclusion.mp inclusion⟩)
  · intro opening body begins
    rcases next_opening opening (List.append_cancel_left begins) with
      ⟨part, takes, value⟩ | ⟨opened, worded, value⟩
    · exact .inl ⟨part, value, fun other => takes.iff_eq⟩
    · exact .inr ⟨reflects.sign.mp opened, worded, value⟩

/-- A spliced line feed and a carriage return in front of it belong to a comment, those at its end
do not.  A quote behind the wrong delimiter does not close a raw string. -/
theorem tokenize_delimited_spliced :
    (Delimited "//\\\r\n'\r\nx".toList [] { kind := .comment, text := "//\\\r\n'".toList } ∧
      (Terminator.lineEnd '/').Takes "\\\r\n'\r\nx".toList "\\\r\n'".toList) ∧
    (Delimited "R\"a()\")a\"b".toList [] { kind := .literal, text := "R\"a()\")a\"".toList } ∧
      (Terminator.mark ")a\"".toList).Takes ")\")a\"b".toList ")\")a\"".toList) := by
  constructor
  · have tokens : tokenize "//\\\r\n'\r\nx".toList =
        [] ++ { kind := .comment, text := "//\\\r\n'".toList } ::
          [{ kind := .whitespace, text := ['\r', '\n'] },
            { kind := .identifier, text := ['x'] }] := by
      cbv
    have delimited := tokenize_delimited tokens
    refine ⟨delimited, ?_⟩
    rcases delimited.terminated .line "\\\r\n'\r\nx".toList rfl with ⟨part, same, only⟩ | named
    · cases same
      exact (only _).mpr rfl
    · exact absurd rfl named.2.1
  · have tokens : tokenize "R\"a()\")a\"b".toList =
        [] ++ { kind := .literal, text := "R\"a()\")a\"".toList } ::
          [{ kind := .identifier, text := ['b'] }] := by
      cbv
    have delimited := tokenize_delimited tokens
    refine ⟨delimited, ?_⟩
    have allowed : Text.IsRawDelimiter ['a'] := Text.isRawDelimiter_iff.mpr (by decide)
    rcases delimited.terminated (.raw ['R'] ['a'] (by decide) allowed) ")\")a\"b".toList rfl with
      ⟨part, same, only⟩ | named
    · cases same
      exact (only _).mpr rfl
    · cases named.2.2

end Token

end Recase
