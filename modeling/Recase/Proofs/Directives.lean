import Recase.Proofs.Agreement
import Recase.Proofs.Tokens
import Mathlib

/-!
# Lines and directives

The lexer keeps two notes on the line that it is in: whether anything but white space and comments
has been read there, and how far a directive has been read.  Both can be read off the tokens that it
has taken, without the lexer.  A line begins behind white space with a line feed.

Behind a comment that ends with a spliced line feed the lexer notes that a line begins, although the
line of the comment goes on.  Nothing comes of that: the comment is followed there by the white
space that breaks the line, and with it both notes are made anew.
-/

namespace Recase

open Character (isWord isWordStart isBlank)
open Token (tokensFrom scan next tokenize render)

/-! ## How a comment ends -/

/-- A comment to the end of the line is followed by a line feed, or by a carriage return with one,
unless it is the last of the text. -/
theorem Lexeme.lineComment_ends (previous : Char) (text : Text) :
    (lineComment previous text).2 = [] ∨
      ∃ rest, (lineComment previous text).2 = '\n' :: rest ∨
        (lineComment previous text).2 = '\r' :: '\n' :: rest := by
  fun_induction lineComment previous text with
  | case1 previous => exact .inl rfl
  | case2 rest body after split ih =>
      rw [split] at ih
      exact ih
  | case3 previous rest plain => exact .inr ⟨rest, .inr rfl⟩
  | case4 previous c rest notPair ends => exact .inr ⟨rest, .inl (by rw [ends.1])⟩
  | case5 previous c rest notPair goesOn body after split ih =>
      rw [split] at ih
      exact ih

/-- A comment between marks does not end with a line feed, unless it is the last of the text. -/
theorem Lexeme.blockComment_ends {text : Text} (more : (blockComment text).2 ≠ []) :
    (blockComment text).1.getLast? = some '/' := by
  cases text with
  | nil => exact absurd rfl more
  | cons star rest =>
      have closed : ['*', '/'] <:+ (Text.through ['*', '/'] rest).1 :=
        (Text.through_suffix_or ['*', '/'] rest).resolve_right more
      have last : ['/'] <:+ (blockComment (star :: rest)).1 :=
        ((List.suffix_append ['*'] ['/']).trans closed).trans (List.suffix_cons star _)
      exact List.singleton_suffix_iff_getLast?_eq_some.mp last

namespace Token

/-! ## Lines of tokens -/

/-- Whether a token breaks the line: it is white space with a line feed. -/
def BreaksLine (token : Token) : Prop :=
  token.kind = .whitespace ∧ '\n' ∈ token.text

instance (token : Token) : Decidable token.BreaksLine :=
  inferInstanceAs (Decidable (_ ∧ _))

/-- The tokens behind the last one that breaks a line. -/
def lastLine (tokens : List Token) : List Token :=
  tokens.rtakeWhile fun token => ¬ token.BreaksLine

/-- Whether there is nothing but white space and comments behind the last token that breaks a
line. -/
def StartsLine (tokens : List Token) : Prop :=
  ∀ token ∈ lastLine tokens, token.IsTrivia

/-- Whether the last token that is neither white space nor a comment meets a condition, given with
the tokens in front of it, and no token breaks the line behind it. -/
def LastOfLine (condition : List Token → Token → Prop) (tokens : List Token) : Prop :=
  ∃ front token gap, tokens = front ++ token :: gap ∧ ¬ token.IsTrivia ∧ condition front token ∧
    ∀ other ∈ gap, other.IsTrivia ∧ ¬ other.BreaksLine

/-- Whether the last token on the line is the number sign that begins the line. -/
def FollowsSign (tokens : List Token) : Prop :=
  LastOfLine (fun front sign => sign.text = ['#'] ∧ StartsLine front) tokens

/-- Whether the last tokens on the line are the number sign that begins the line and the name of an
inclusion. -/
def FollowsInclusion (tokens : List Token) : Prop :=
  LastOfLine (fun front name => name.text ∈ LineContext.inclusionNames ∧ FollowsSign front) tokens

/-- Whether the last token is a comment that ends with a line feed, which has to be spliced. -/
def EndsSpliced (tokens : List Token) : Prop :=
  ∃ front comment, tokens = front ++ [comment] ∧ comment.kind = .comment ∧
    comment.text.getLast? = some '\n'

variable {tokens before behind : List Token} {token : Token} {condition : List Token → Token → Prop}

theorem startsLine_nil : StartsLine [] :=
  fun _ member => absurd member List.not_mem_nil

theorem startsLine_concat :
    StartsLine (tokens ++ [token]) ↔ token.BreaksLine ∨ token.IsTrivia ∧ StartsLine tokens := by
  rw [StartsLine, lastLine, List.rtakeWhile_concat]
  by_cases breaks : token.BreaksLine
  · simp [breaks]
  · simp only [breaks, not_false_eq_true, decide_true, if_true, false_or, List.forall_mem_append,
      List.forall_mem_singleton]
    exact and_comm

theorem not_lastOfLine_nil : ¬ LastOfLine condition [] := by
  rintro ⟨front, token, gap, split, -⟩
  simp at split

theorem lastOfLine_concat : LastOfLine condition (tokens ++ [token]) ↔
    ¬ token.IsTrivia ∧ condition tokens token ∨
      token.IsTrivia ∧ ¬ token.BreaksLine ∧ LastOfLine condition tokens := by
  constructor
  · rintro ⟨front, other, gap, split, noTrivia, holds, sameLine⟩
    rcases List.eq_nil_or_concat gap with rfl | ⟨inner, last, rfl⟩
    · obtain ⟨rfl, same⟩ := List.append_inj' split rfl
      cases same
      exact .inl ⟨noTrivia, holds⟩
    · rw [List.concat_eq_append, ← List.cons_append, ← List.append_assoc] at split
      obtain ⟨rfl, same⟩ := List.append_inj' split rfl
      cases same
      rw [List.concat_eq_append, List.forall_mem_append, List.forall_mem_singleton] at sameLine
      exact .inr ⟨sameLine.2.1, sameLine.2.2, front, other, inner, rfl, noTrivia, holds, sameLine.1⟩
  · rintro (⟨noTrivia, holds⟩ |
      ⟨trivia, noBreak, front, other, gap, rfl, noTrivia, holds, sameLine⟩)
    · exact ⟨tokens, token, [], rfl, noTrivia, holds,
        fun _ member => absurd member List.not_mem_nil⟩
    · refine ⟨front, other, gap ++ [token], by simp, noTrivia, holds, ?_⟩
      exact List.forall_mem_append.mpr
        ⟨sameLine, List.forall_mem_singleton.mpr ⟨trivia, noBreak⟩⟩

theorem endsSpliced_concat :
    EndsSpliced (tokens ++ [token]) ↔
      token.kind = .comment ∧ token.text.getLast? = some '\n' := by
  constructor
  · rintro ⟨front, comment, split, kind, last⟩
    obtain ⟨rfl, same⟩ := List.append_inj' split rfl
    cases same
    exact ⟨kind, last⟩
  · rintro ⟨kind, last⟩
    exact ⟨tokens, token, rfl, kind, last⟩

/-! ## What a character begins on its line -/

variable {context : LineContext} {first : Char} {rest : Text}

theorem extent_of_comment (comment : (scan context first rest).1 = .comment) :
    (scan context first rest).2 = Lexeme.lineComment first rest ∨
      (scan context first rest).2 = Lexeme.blockComment rest := by
  revert comment
  rw [scan]
  split
  · intro other
    cases other
  split
  · exact fun _ => .inl rfl
  split
  · exact fun _ => .inr rfl
  dsimp only
  repeat' split
  all_goals
    intro other
    cases other

theorem kind_next_sign (context : LineContext) (rest : Text) :
    (next context '#' rest).1.kind = .punctuation := by
  have noBlank : isBlank '#' = false := by decide
  have noStart : isWordStart '#' = false := by decide
  cases start : context.atStart <;> simp [next, scan, noBlank, noStart, start, Char.isDigit]

/-- An opening bracket begins a literal in an inclusion and nowhere else. -/
theorem kind_next_bracket_iff (context : LineContext) (rest : Text) :
    (next context '<' rest).1.kind = .literal ↔ context.directive = .inclusion := by
  have noBlank : isBlank '<' = false := by decide
  have noStart : isWordStart '<' = false := by decide
  by_cases inclusion : context.directive = .inclusion <;>
    simp [next, scan, noBlank, noStart, inclusion, Char.isDigit]

/-- A word is punctuation behind the number sign of a directive and nowhere else. -/
theorem kind_next_word_iff (context : LineContext) (starts : isWordStart first = true)
    (rest : Text) :
    (next context first rest).1.kind = .punctuation ↔ context.directive = .opened := by
  have noBlank := isBlank_eq_false_of_isWord (Character.isWord_of_isWordStart starts)
  rw [next, scan_word context starts noBlank]
  by_cases opened : context.directive = .opened
  · simp [opened]
  · rw [if_neg opened]
    refine iff_of_false ?_ opened
    split <;> (intro wrong; cases wrong)

theorem isWordStart_of_inclusionName {name : Text} {first : Char}
    (listed : name ∈ LineContext.inclusionNames) (head : name.head? = some first) :
    isWordStart first = true := by
  have names : ∀ name ∈ LineContext.inclusionNames, name.head? = some 'i' := by decide
  rw [names name listed] at head
  cases head
  decide

/-! ## Notes on a line -/

/-- The notes of the lexer and the tokens that it has taken agree.  It holds a spliced line feed for
the beginning of a line. -/
structure Reflects (context : LineContext) (before : List Token) : Prop where
  line : context.atStart = true ↔ StartsLine before ∨ EndsSpliced before
  outside : StartsLine before → context.directive = .outside
  sign : context.directive = .opened ↔ FollowsSign before
  inclusion : context.directive = .inclusion ↔ FollowsInclusion before

theorem reflects_initial : Reflects .initial [] where
  line := iff_of_true rfl (.inl startsLine_nil)
  outside := fun _ => rfl
  sign := iff_of_false nofun not_lastOfLine_nil
  inclusion := iff_of_false nofun not_lastOfLine_nil

/-! ### One token more -/

section Step

variable (reflects : Reflects context before) (made : (next context first rest).1 = token)
  (spliced : EndsSpliced before → token.BreaksLine)

include reflects spliced in
/-- In front of a token that is no white space no line feed is spliced. -/
theorem Reflects.atStart_iff (noWhite : token.kind ≠ .whitespace) :
    context.atStart = true ↔ StartsLine before := by
  have unspliced : ¬ EndsSpliced before := fun ends => noWhite (spliced ends).1
  rw [reflects.line, or_iff_left unspliced]

include reflects spliced in
theorem Reflects.line_after : (context.after token).atStart = true ↔
    StartsLine (before ++ [token]) ∨ EndsSpliced (before ++ [token]) := by
  rw [startsLine_concat, endsSpliced_concat]
  simp only [LineContext.after, LineContext.atStartAfter]
  cases kind : token.kind with
  | identifier | literal | punctuation => simp [BreaksLine, IsTrivia, kind]
  | comment =>
      have begun := reflects.atStart_iff spliced (by simp [kind])
      simp [BreaksLine, IsTrivia, kind, begun]
  | whitespace =>
      simp only [BreaksLine, IsTrivia, kind, Bool.or_eq_true, reflects.line, List.contains_iff_mem,
        true_and, or_true, reduceCtorEq, false_and, or_false]
      constructor
      · rintro ((starts | ends) | lineFeed)
        · exact .inr starts
        · exact .inl (spliced ends).2
        · exact .inl lineFeed
      · rintro (lineFeed | starts)
        · exact .inr lineFeed
        · exact .inl (.inl starts)

include reflects in
theorem Reflects.outside_after (starts : StartsLine (before ++ [token])) :
    (context.after token).directive = .outside := by
  simp only [LineContext.after, LineContext.directiveAfter]
  rcases startsLine_concat.mp starts with ⟨kind, lineFeed⟩ | ⟨comment | whitespace, begun⟩
  · simp [kind, lineFeed]
  · rw [comment]
    exact reflects.outside begun
  · rw [whitespace]
    dsimp only
    split
    · rfl
    · exact reflects.outside begun

include reflects made spliced in
theorem Reflects.sign_after : (context.after token).directive = .opened ↔
    FollowsSign (before ++ [token]) := by
  have signKind : token.text = ['#'] → token.kind = .punctuation := by
    intro sign
    rw [← made] at sign ⊢
    obtain ⟨rfl, -⟩ := List.cons.inj sign
    exact kind_next_sign context rest
  rw [FollowsSign, lastOfLine_concat, ← FollowsSign, ← reflects.sign]
  simp only [LineContext.after, LineContext.directiveAfter]
  cases kind : token.kind with
  | identifier | literal =>
      have other : token.text ≠ ['#'] := fun sign => by simp [signKind sign] at kind
      simp [IsTrivia, kind, other]
  | comment => simp [BreaksLine, IsTrivia, kind]
  | whitespace =>
      by_cases lineFeed : '\n' ∈ token.text <;> simp [BreaksLine, IsTrivia, kind, lineFeed]
  | punctuation =>
      have begun := reflects.atStart_iff spliced (by simp [kind])
      cases directive : context.directive with
      | outside => simp [IsTrivia, kind, begun]
      | opened | inclusion =>
          have midLine : ¬ StartsLine before := by
            intro starts
            cases directive.symm.trans (reflects.outside starts)
          by_cases listed : token.text ∈ LineContext.inclusionNames <;>
            simp [IsTrivia, kind, midLine, listed]

include reflects made in
theorem Reflects.inclusion_after : (context.after token).directive = .inclusion ↔
    FollowsInclusion (before ++ [token]) := by
  have nameKind : token.text ∈ LineContext.inclusionNames → context.directive = .opened →
      token.kind = .punctuation := by
    intro listed opened
    rw [← made] at listed ⊢
    exact (kind_next_word_iff context (isWordStart_of_inclusionName listed rfl) rest).mpr opened
  rw [FollowsInclusion, lastOfLine_concat, ← FollowsInclusion, ← reflects.inclusion,
    ← reflects.sign]
  simp only [LineContext.after, LineContext.directiveAfter]
  cases kind : token.kind with
  | identifier | literal =>
      have other : ¬ (token.text ∈ LineContext.inclusionNames ∧ context.directive = .opened) :=
        fun named => by simp [nameKind named.1 named.2] at kind
      simp [IsTrivia, kind, other]
  | comment => simp [BreaksLine, IsTrivia, kind]
  | whitespace =>
      by_cases lineFeed : '\n' ∈ token.text <;> simp [BreaksLine, IsTrivia, kind, lineFeed]
  | punctuation =>
      cases directive : context.directive with
      | outside =>
          by_cases sign : token.text = ['#'] ∧ context.atStart = true <;>
            simp [IsTrivia, kind, sign]
      | opened => simp [IsTrivia, kind]
      | inclusion => simp [IsTrivia, kind]

end Step

/-- The notes agree behind a token if they do in front of it, and if a spliced line feed is followed
by the end of its line. -/
theorem Reflects.after (reflects : Reflects context before)
    (made : (next context first rest).1 = token) (spliced : EndsSpliced before → token.BreaksLine) :
    Reflects (context.after token) (before ++ [token]) where
  line := reflects.line_after spliced
  outside := reflects.outside_after
  sign := reflects.sign_after made spliced
  inclusion := reflects.inclusion_after made

/-! ### All tokens -/

theorem breaksLine_next (context : LineContext) (blank : isBlank first = true)
    (lineFeed : '\n' ∈ first :: rest.takeWhile isBlank) :
    (next context first rest).1.BreaksLine := by
  rw [next, scan_of_isBlank context blank]
  exact ⟨rfl, lineFeed⟩

/-- A comment that ends with a line feed is followed by white space that breaks the line. -/
theorem breaksLine_next_of_comment (other : LineContext) {second : Char} {more : Text}
    (comment : (next context first rest).1.kind = .comment)
    (lineFeed : (next context first rest).1.text.getLast? = some '\n')
    (goesOn : (next context first rest).2 = second :: more) :
    (next other second more).1.BreaksLine := by
  rw [next] at comment lineFeed goesOn
  dsimp only at comment lineFeed goesOn
  rcases extent_of_comment comment with line | block
  · rw [line] at goesOn
    rcases Lexeme.lineComment_ends first rest with nothing | ⟨behind, feed | carriage⟩
    · rw [nothing] at goesOn
      cases goesOn
    · rw [feed] at goesOn
      cases goesOn
      exact breaksLine_next other (by decide) List.mem_cons_self
    · rw [carriage] at goesOn
      cases goesOn
      refine breaksLine_next other (by decide) (List.mem_cons_of_mem _ ?_)
      rw [List.takeWhile_cons_of_pos (by decide)]
      exact List.mem_cons_self
  · rw [block] at goesOn lineFeed
    have closed := Lexeme.blockComment_ends (by rw [goesOn]; exact List.cons_ne_nil second more)
    rw [List.getLast?_cons, closed] at lineFeed
    cases lineFeed

theorem breaksLine_of_endsSpliced {source : Text}
    (split : tokenize source = before ++ token :: behind) (spliced : EndsSpliced before) :
    token.BreaksLine := by
  obtain ⟨front, comment, rfl, kind, last⟩ := spliced
  obtain ⟨second, more, -, found⟩ := exists_next_of_tokensFrom split
  have spelled : token.text ++ render behind = second :: more := by
    rw [← next_append (LineContext.initial.behind (front ++ [comment])) second more, found]
  rw [tokenize, List.append_assoc] at split
  obtain ⟨first, rest, -, made⟩ := exists_next_of_tokensFrom split
  have same : (next (LineContext.initial.behind (front ++ [comment])) second more).1 = token :=
    congrArg Prod.fst found
  rw [← same]
  apply breaksLine_next_of_comment
  · rw [made]
    exact kind
  · rw [made]
    exact last
  · rw [made]
    exact spelled

/-- The notes and the tokens agree wherever a token begins. -/
theorem reflects_tokenize {source : Text} (split : tokenize source = before ++ behind) :
    Reflects (LineContext.initial.behind before) before := by
  induction before using List.reverseRecOn generalizing behind with
  | nil => exact reflects_initial
  | append_singleton before token ih =>
      rw [List.append_assoc] at split
      obtain ⟨first, rest, -, found⟩ := exists_next_of_tokensFrom split
      rw [LineContext.behind_concat]
      exact (ih split).after (congrArg Prod.fst found) (breaksLine_of_endsSpliced split)

/-- What the notes of the lexer mean in front of a token.  A line is noted to begin in front of it
if and only if one does, or a spliced line feed ends the comment directly in front; no directive is
being read then, unless it is such a comment on a line that goes on.  The token behind such a comment
breaks the line, whatever has been noted. -/
structure Heeds (context : LineContext) (before : List Token) (token : Token) : Prop where
  line : context.atStart = true ↔ StartsLine before ∨ EndsSpliced before
  outside : context.atStart = true →
    context.directive = .outside ∨ EndsSpliced before ∧ ¬ StartsLine before
  spliced : EndsSpliced before →
    token.BreaksLine ∧ ∀ other : LineContext, other.after token = .initial
  word : token.text.head?.any isWordStart = true →
    (token.kind = .punctuation ↔ FollowsSign before)
  bracket : token.text.head? = some '<' → (token.kind = .literal ↔ FollowsInclusion before)

end Token

theorem LineContext.after_of_breaksLine (context : LineContext) {token : Token}
    (breaks : token.BreaksLine) : context.after token = .initial := by
  simp [after, directiveAfter, atStartAfter, breaks.1, breaks.2, initial]

namespace Token

variable {before behind : List Token} {token : Token}

/-- The notes that the lexer keeps on a line mean what they stand for, wherever a token begins. -/
theorem tokenize_heeds {source : Text} (split : tokenize source = before ++ token :: behind) :
    ∃ first rest, source = render before ++ first :: rest ∧
      next (LineContext.initial.behind before) first rest = (token, render behind) ∧
      Heeds (LineContext.initial.behind before) before token := by
  obtain ⟨first, rest, whole, found⟩ := exists_next_of_tokensFrom split
  have reflects := reflects_tokenize split
  refine ⟨first, rest, whole, found, ?_⟩
  have made : (next (LineContext.initial.behind before) first rest).1 = token :=
    congrArg Prod.fst found
  have head : token.text.head? = some first := by rw [← made]; rfl
  constructor
  · exact reflects.line
  · intro begins
    by_cases starts : StartsLine before
    · exact .inl (reflects.outside starts)
    · exact .inr ⟨(reflects.line.mp begins).resolve_left starts, starts⟩
  · intro spliced
    have breaks := breaksLine_of_endsSpliced split spliced
    exact ⟨breaks, fun other => other.after_of_breaksLine breaks⟩
  · intro starts
    rw [head] at starts
    rw [← reflects.sign, ← made]
    exact kind_next_word_iff _ starts rest
  · intro bracket
    rw [head] at bracket
    cases bracket
    rw [← reflects.inclusion, ← made]
    exact kind_next_bracket_iff _ rest

/-- A bracket follows an inclusion across a comment. -/
theorem tokenize_heeds_inclusion :
    ∃ before, tokenize ['#', 'i', 'm', 'p', 'o', 'r', 't', '/', '*', '*', '/', '<', 'a', '>'] =
        before ++ [{ kind := .literal, text := ['<', 'a', '>'] }] ∧
      FollowsInclusion before ∧ ¬ StartsLine before := by
  have tokens : tokenize ['#', 'i', 'm', 'p', 'o', 'r', 't', '/', '*', '*', '/', '<', 'a', '>'] =
      [{ kind := .punctuation, text := ['#'] },
        { kind := .punctuation, text := ['i', 'm', 'p', 'o', 'r', 't'] },
        { kind := .comment, text := ['/', '*', '*', '/'] }] ++
      { kind := .literal, text := ['<', 'a', '>'] } :: [] := by
    cbv
  obtain ⟨first, rest, -, -, heeds⟩ := tokenize_heeds tokens
  refine ⟨_, tokens, (heeds.bracket rfl).mp rfl, ?_⟩
  intro starts
  cases heeds.line.mpr (.inl starts)

/-- Behind a spliced line feed the beginning of a line is noted in the middle of one, where a name
stands on the line or the number sign of a directive. -/
theorem exists_atStart_not_startsLine :
    (∃ before, tokenize ['x', '/', '/', '\\', '\n', '\n'] =
        before ++ [{ kind := .whitespace, text := ['\n'] }] ∧
      (LineContext.initial.behind before).atStart = true ∧ ¬ StartsLine before) ∧
    ∃ before, tokenize ['#', '/', '/', '\\', '\n', '\n'] =
        before ++ [{ kind := .whitespace, text := ['\n'] }] ∧
      (LineContext.initial.behind before).atStart = true ∧
      (LineContext.initial.behind before).directive = .opened := by
  constructor
  · refine ⟨[{ kind := .identifier, text := ['x'] },
      { kind := .comment, text := ['/', '/', '\\', '\n'] }], by cbv, by decide, ?_⟩
    intro starts
    exact absurd (starts _ (List.mem_cons_self : _ ∈ _)) (by simp [IsTrivia])
  · exact ⟨[{ kind := .punctuation, text := ['#'] },
      { kind := .comment, text := ['/', '/', '\\', '\n'] }], by cbv, by decide, by decide⟩

end Token

end Recase
