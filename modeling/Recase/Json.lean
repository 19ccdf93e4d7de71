import Recase.Index

/-!
# JSON values

A value of a JSON document.  Numbers keep the text that they are written with.  A string may escape
one half of a surrogate pair without the other; such a string is a value like any other, but there
is no text that it spells.
-/

namespace Recase

/-- What a JSON string spells, if it spells a text at all. -/
abbrev Json.Spelling := Option Text

/-- A JSON value.  Numbers are kept as they are written, and so are the members of an object. -/
inductive Json where
  | null
  | bool (value : Bool)
  | number (written : Text)
  | string (spelling : Json.Spelling)
  | array (items : List Json)
  | object (members : List (Json.Spelling × Json))
  deriving Inhabited

namespace Json

/-- The string that spells a text. -/
def text (content : Text) : Json :=
  .string (some content)

/-- A natural number. -/
def nat (value : Nat) : Json :=
  .number (Text.ofNat value)

/-- An array of strings. -/
def texts (contents : List Text) : Json :=
  .array (contents.map text)

/-- An object with its members in the order given. -/
def fields (members : List (Text × Json)) : Json :=
  .object (members.map fun (key, value) => (some key, value))

/-- An object with its members in the order of their keys. -/
def record (members : List (Text × Json)) : Json :=
  .fields (Index.ofList members).entries

/-- The value of the first member of an object with a key. -/
def member? (key : Text) : Json → Option Json
  | object members => (members.find? fun member => member.1 = some key).map Prod.snd
  | _ => none

/-- The text that a string spells, if it spells one. -/
def text? : Json → Option Text
  | string spelling => spelling
  | _ => none

/-- A member that is left out when it has no value. -/
def optional (key : Text) (value : Option Json) : List (Text × Json) :=
  value.toList.map fun value => (key, value)

end Json

end Recase
