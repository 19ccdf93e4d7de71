import Recase.Convention
import Recase.Guard
import Recase.Mode
import Recase.Token.Lexer

/-!
# Rewriting texts

A rewriting takes a text apart into names and what lies between them, renames the names, and puts
the parts together again.  Which parts are names depends on the mode: the identifiers of the source
text, or all words wherever they stand.
-/

namespace Recase

/-- A part of a text: a name, or anything else. -/
structure Part where
  isName : Bool
  text : Text
  deriving DecidableEq, Repr

namespace Part

/-- The text that a list of parts makes up. -/
def join (parts : List Part) : Text :=
  parts.flatMap Part.text

@[simp] theorem join_nil : join [] = [] := rfl

@[simp] theorem join_cons (part : Part) (parts : List Part) :
    join (part :: parts) = part.text ++ join parts := by
  simp [join]

/-- The part that a token is. -/
def ofToken (token : Token) : Part where
  isName := token.kind = .identifier
  text := token.text

/-- Put a character in front of a list of parts.  It joins the first part if both are of the same
sort. -/
def push (isWord : Char → Bool) (c : Char) : List Part → List Part
  | [] => [{ isName := isWord c, text := [c] }]
  | part :: parts =>
    if part.isName = isWord c then { part with text := c :: part.text } :: parts
    else { isName := isWord c, text := [c] } :: part :: parts

@[simp] theorem join_push (isWord : Char → Bool) (c : Char) (parts : List Part) :
    join (push isWord c parts) = c :: join parts := by
  cases parts with
  | nil => rfl
  | cons part parts =>
      simp only [push]
      split <;> simp

/-- The longest runs of word characters of a text, and what lies between them. -/
def ofWords (isWord : Char → Bool) (text : Text) : List Part :=
  text.foldr (push isWord) []

@[simp] theorem join_ofWords (isWord : Char → Bool) (text : Text) :
    join (ofWords isWord text) = text := by
  induction text with
  | nil => rfl
  | cons c rest ih =>
      change join (push isWord c (ofWords isWord rest)) = c :: rest
      rw [join_push, ih]

end Part

namespace Mode

/-- The parts of a text. -/
def parts : Mode → Text → List Part
  | .lexical, content => (Token.tokenize content).map Part.ofToken
  | .text, content => Part.ofWords Character.isTextWord content

/-- Taking a text apart loses nothing and reorders nothing. -/
@[simp] theorem join_parts (mode : Mode) (content : Text) :
    Part.join (mode.parts content) = content := by
  cases mode with
  | lexical =>
      have tokens := Token.render_tokensFrom .initial content
      simpa [parts, Part.join, Token.render, Token.tokenize, List.flatMap_map, Part.ofToken]
        using tokens
  | text => simp [parts]

end Mode

/-- New names, recorded under the names that they replace. -/
abbrev Renames := Index Text

namespace Convention

/-- The old name and the new name, if a part is a name that changes. -/
def change? (convention : Convention) (part : Part) : Option (Text × Text) :=
  if part.isName then (convention.rename? part.text).map fun name => (part.text, name) else none

/-- The text of a part after the rewriting. -/
def rewritten (convention : Convention) (part : Part) : Text :=
  match convention.change? part with
  | some (_, name) => name
  | none => part.text

/-- All changes among a list of parts, in order. -/
def changes (convention : Convention) (parts : List Part) : List (Text × Text) :=
  parts.filterMap convention.change?

/-- The text that a list of parts is rewritten to. -/
def rewriteParts (convention : Convention) (parts : List Part) : Text :=
  parts.flatMap convention.rewritten

end Convention

/-- What became of a text.  Every occurrence of a name that was replaced is counted. -/
structure Rewrite where
  content : Text
  replacements : Nat
  renames : Renames
  deriving DecidableEq

/-- What a text that holds no separators is rewritten to, given the way to take it apart. -/
def Convention.rewriteBy (convention : Convention) (cut : Text → List Part) (text : Text) :
    Rewrite :=
  let parts := cut text
  let changes := convention.changes parts
  { content := convention.rewriteParts parts
    replacements := changes.length
    renames := Index.ofList changes }

/-- What a text is rewritten to, with its separators under guard, given the way to take it apart. -/
def rewriteContentBy (guard : Guard) (convention : Convention) (cut : Text → List Part)
    (content : Text) : Except Error Rewrite := do
  let concealed ← guard.protect content
  let rewrite := convention.rewriteBy cut concealed
  pure { rewrite with content := guard.restore rewrite.content }

/-- What a text is rewritten to, with its separators under guard. -/
def rewriteContent (guard : Guard) (convention : Convention) (mode : Mode) (content : Text) :
    Except Error Rewrite :=
  rewriteContentBy guard convention mode.parts content

end Recase
