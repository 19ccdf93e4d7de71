import Recase.Text

/-!
# Tokens

A token is a piece of C or C++ source text together with its kind.  The texts of a token list,
written one behind the other, give the source back: white space and comments are tokens too.
-/

namespace Recase

/-- What a token is, as far as renaming is concerned.  Keywords are identifiers, the header name of
an inclusion is a literal, and the name of a directive is punctuation. -/
inductive Token.Kind where
  | identifier
  | literal
  | comment
  | punctuation
  | whitespace
  deriving DecidableEq, Repr

/-- The word for a kind. -/
def Token.Kind.name : Token.Kind → Text
  | identifier => "identifier".toList
  | literal => "literal".toList
  | comment => "comment".toList
  | punctuation => "punctuation".toList
  | whitespace => "whitespace".toList

/-- A piece of source text. -/
structure Token where
  kind : Token.Kind
  text : Text
  deriving DecidableEq, Repr

namespace Token

/-- The source text that a list of tokens stands for. -/
def render (tokens : List Token) : Text :=
  tokens.flatMap Token.text

@[simp] theorem render_nil : render [] = [] := rfl

@[simp] theorem render_cons (token : Token) (tokens : List Token) :
    render (token :: tokens) = token.text ++ render tokens := by
  simp [render]

@[simp] theorem render_append (left right : List Token) :
    render (left ++ right) = render left ++ render right := by
  simp [render]

end Token

end Recase
