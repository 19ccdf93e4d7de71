import Recase.Character.Uppercase
import Recase.Character.Word
import Recase.Index

/-!
# Naming conventions

A member is marked by `m_` and an argument by `a_`; the words of a name are joined with capitals
instead of underscores.  A convention brings a name into this form in two steps.  First a leading
underscore gets the letter of a member in front.  Then the underscores go, each word behind the
first one gets a capital, and so does the first one unless it is a marker.
-/

namespace Recase

/-- How names are to be written.  Without camel case only leading underscores change. -/
structure Convention where
  ignored : Names
  memberMarker : Text
  argumentMarker : Text
  camelCase : Bool
  deriving DecidableEq

/-- A word with its first character in upper case. -/
def capitalize : Text → Text
  | [] => []
  | first :: rest => Character.uppercase first ++ rest

/-- A name that begins with an underscore, with the letter of a member in front. -/
def markMember? : Text → Option Text
  | '_' :: rest => some ('m' :: '_' :: rest)
  | _ => none

/-- The words of a name: what lies between its underscores. -/
def words (name : Text) : List Text :=
  Text.cutAt ['_'] name

namespace Convention

/-- Whether a name keeps its underscores. -/
def ignores (convention : Convention) (name : Text) : Bool :=
  convention.ignored.contains name

/-- Whether the underscores of a name may be replaced by capitals.  Names that begin with a capital
or with a digit are taken to follow another convention. -/
def isCandidate (convention : Convention) (name : Text) : Bool :=
  match name with
  | [] => false
  | first :: _ =>
    name.contains '_' && !Character.isUppercase first && !first.isDigit &&
      !convention.ignores name

/-- The first word of a name, as it begins the name in camel case. -/
def head (convention : Convention) (word : Text) : Text :=
  if word = convention.memberMarker ∨ word = convention.argumentMarker then word ++ ['_']
  else capitalize word

/-- The words of a name joined by capitals. -/
def joinWords (convention : Convention) : List Text → Text
  | [] => []
  | first :: rest => convention.head first ++ rest.flatMap capitalize

/-- A name in camel case, if that is another name. -/
def camelCase? (convention : Convention) (name : Text) : Option Text :=
  if convention.isCandidate name then
    let joined := convention.joinWords (words name)
    if joined = name then none else some joined
  else
    none

/-- A name as the convention wants it, if that is another name. -/
def rename? (convention : Convention) (name : Text) : Option Text :=
  let marked := markMember? name
  let camel := if convention.camelCase then convention.camelCase? (marked.getD name) else none
  camel.or marked

end Convention

end Recase
