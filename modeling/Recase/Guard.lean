import Recase.Error
import Recase.Text

/-!
# Separators under guard

A separator is a text that has to survive a rewriting whatever it consists of.  While the rewriting
goes on a placeholder stands in for it, a single character that the text does not contain.
-/

namespace Recase

/-- A separator and the character that stands in for it. -/
structure Guard where
  separator : Text
  placeholder : Char
  deriving DecidableEq, Repr

namespace Guard

/-- What lies between the separators of a text. -/
def pieces (guard : Guard) (text : Text) : List Text :=
  Text.cutAt guard.separator text

/-- Put the placeholder in place of every separator. -/
def conceal (guard : Guard) (text : Text) : Text :=
  List.intercalate [guard.placeholder] (guard.pieces text)

/-- Put the separator in place of every placeholder. -/
def restore (guard : Guard) (text : Text) : Text :=
  text.flatMap fun c => if c = guard.placeholder then guard.separator else [c]

/-- Conceal the separators of a text.  A text that contains the placeholder is refused, for the way
back could not tell its placeholders from the others. -/
def protect (guard : Guard) (text : Text) : Except Error Text :=
  if text.contains guard.placeholder then
    .error (.of (.placeholderCollision guard.placeholder none))
  else
    .ok (guard.conceal text)

end Guard

end Recase
