import Recase.Character.Word
import Recase.Token
import Recase.Token.Lexeme

/-!
# Lexing

Source text is cut into tokens from left to right.  What a character begins depends on the line it
stands in: a number sign opens a preprocessor directive only as the first thing of its line, the
word behind it names the directive, and angle brackets delimit a header name only in an inclusion.
-/

namespace Recase

/-- How far a preprocessor directive has been read: not at all, up to its number sign, or up to the
name of an inclusion. -/
inductive Directive where
  | outside
  | opened
  | inclusion
  deriving DecidableEq, Repr

/-- What the lexer knows about the line that it is in: how far a directive has been read, and
whether there is nothing but white space and comments so far. -/
structure LineContext where
  directive : Directive
  atStart : Bool
  deriving DecidableEq, Repr

namespace LineContext

/-- The context in which a source text begins. -/
def initial : LineContext where
  directive := .outside
  atStart := true

/-- The directives that include a header. -/
def inclusionNames : List Text :=
  ["include".toList, "include_next".toList, "import".toList]

/-- How far a directive has been read behind a token.  White space without a line feed and comments
leave this as it is. -/
def directiveAfter (context : LineContext) (token : Token) : Directive :=
  match token.kind with
  | .whitespace => if token.text.contains '\n' then .outside else context.directive
  | .comment => context.directive
  | .punctuation =>
    match context.directive with
    | .outside => if token.text = ['#'] ∧ context.atStart then .opened else .outside
    | .opened => if inclusionNames.contains token.text then .inclusion else .outside
    | .inclusion => .outside
  | .identifier | .literal => .outside

/-- Whether a line holds nothing but white space and comments still behind a token. -/
def atStartAfter (context : LineContext) (token : Token) : Bool :=
  match token.kind with
  | .whitespace => context.atStart || token.text.contains '\n'
  | .comment => context.atStart || token.text.getLast? == some '\n'
  | .identifier | .literal | .punctuation => false

/-- The context behind a token. -/
def after (context : LineContext) (token : Token) : LineContext where
  directive := context.directiveAfter token
  atStart := context.atStartAfter token

end LineContext

namespace Token

/-- The kind of the token that a character begins, and the text behind that character split where
the token ends. -/
def scan (context : LineContext) (first : Char) (rest : Text) : Kind × Text × Text :=
  if Character.isBlank first then
    (.whitespace, rest.takeWhile Character.isBlank, rest.dropWhile Character.isBlank)
  else if first = '/' ∧ rest.head? = some '/' then
    (.comment, Lexeme.lineComment first rest)
  else if first = '/' ∧ rest.head? = some '*' then
    (.comment, Lexeme.blockComment rest)
  else if first = '#' ∧ context.atStart then
    (.punctuation, [], rest)
  else if first = '<' ∧ context.directive = .inclusion then
    (.literal, Lexeme.headerName rest)
  else if Character.isWordStart first then
    let word := rest.takeWhile Character.isWord
    let behind := rest.dropWhile Character.isWord
    if context.directive = .opened then
      (.punctuation, word, behind)
    else
      match Lexeme.encoded (first :: word) behind with
      | some (body, after) => (.literal, word ++ body, after)
      | none => (.identifier, word, behind)
  else if first.isDigit ∨ first = '.' ∧ rest.head?.any Char.isDigit then
    (.literal, Lexeme.number first rest)
  else if first = '"' ∨ first = '\'' then
    (.literal, Lexeme.quoted first rest)
  else
    (.punctuation, [], rest)

/-- A token is a part of the text, and the lexer goes on right behind it. -/
@[simp] theorem scan_append (context : LineContext) (first : Char) (rest : Text) :
    (scan context first rest).2.1 ++ (scan context first rest).2.2 = rest := by
  unfold scan
  dsimp only
  repeat' split
  all_goals try simp
  next found => simp [Lexeme.encoded_append found]

/-- The token that a character begins, and the text behind it. -/
def next (context : LineContext) (first : Char) (rest : Text) : Token × Text :=
  let scanned := scan context first rest
  ({ kind := scanned.1, text := first :: scanned.2.1 }, scanned.2.2)

@[simp] theorem next_append (context : LineContext) (first : Char) (rest : Text) :
    (next context first rest).1.text ++ (next context first rest).2 = first :: rest := by
  simp [next]

/-- Every token takes at least one character. -/
theorem length_next (context : LineContext) (first : Char) (rest : Text) :
    (next context first rest).2.length ≤ rest.length := by
  have lengths := congrArg List.length (scan_append context first rest)
  simp only [List.length_append] at lengths
  simp only [next]
  omega

/-- The tokens of a text that begins in the given context. -/
def tokensFrom (context : LineContext) : Text → List Token
  | [] => []
  | first :: rest =>
    let token := (next context first rest).1
    token :: tokensFrom (context.after token) (next context first rest).2
termination_by text => text.length
decreasing_by
  have := length_next context first rest
  simp only [List.length_cons]
  omega

/-- The tokens of a source text. -/
def tokenize (source : Text) : List Token :=
  tokensFrom .initial source

@[simp] theorem tokenize_nil : tokenize [] = [] := by
  simp [tokenize, tokensFrom]

/-- Lexing loses nothing and reorders nothing. -/
@[simp] theorem render_tokensFrom (context : LineContext) (text : Text) :
    render (tokensFrom context text) = text := by
  fun_induction tokensFrom context text with
  | case1 => rfl
  | case2 context first rest token ih => simp [ih, token]

end Token

end Recase
