import Recase.Json

/-!
# Printing JSON

A document is printed over several lines: every item and every member has its own, two columns
further in than the bracket that holds it.  Only quotation marks, backslashes and control
characters below the space are escaped.
-/

namespace Recase.Json

/-- The lower-case hexadecimal digits of a code, four of them. -/
def hexDigits (code : Nat) : Text :=
  [code / 0x1000, code / 0x100, code / 0x10, code].map fun digits => Nat.digitChar (digits % 0x10)

/-- A character as it stands in a string. -/
def escape (c : Char) : Text :=
  if c = '"' then ['\\', '"']
  else if c = '\\' then ['\\', '\\']
  else if c = '\n' then ['\\', 'n']
  else if c = '\r' then ['\\', 'r']
  else if c = '\t' then ['\\', 't']
  else if c = '\x08' then ['\\', 'b']
  else if c = '\x0c' then ['\\', 'f']
  else if c.toNat < 0x20 then ['\\', 'u'] ++ hexDigits c.toNat
  else [c]

/-- A string in quotation marks.  One that spells no text is written as half a surrogate pair. -/
def quote : Spelling → Text
  | some content => '"' :: content.flatMap escape ++ ['"']
  | none => '"' :: '\\' :: 'u' :: hexDigits 0xD800 ++ ['"']

/-- The beginning of a line that lies `depth` brackets deep. -/
def newLine (depth : Nat) : Text :=
  '\n' :: List.replicate (2 * depth) ' '

/-- The name of a truth value. -/
def boolName : Bool → Text
  | true => ['t', 'r', 'u', 'e']
  | false => ['f', 'a', 'l', 's', 'e']

mutual

/-- A value that begins on a line `depth` brackets deep. -/
def pretty (depth : Nat) : Json → Text
  | .null => ['n', 'u', 'l', 'l']
  | .bool value => boolName value
  | .number written => written
  | .string spelling => quote spelling
  | .array [] => ['[', ']']
  | .array (item :: items) =>
    '[' :: newLine (depth + 1) ++ pretty (depth + 1) item ++ prettyItems (depth + 1) items ++
      newLine depth ++ [']']
  | .object [] => ['\x7b', '\x7d']
  | .object (member :: members) =>
    '\x7b' :: newLine (depth + 1) ++ prettyMember (depth + 1) member ++
      prettyMembers (depth + 1) members ++ newLine depth ++ ['\x7d']

/-- The items behind the first one. -/
def prettyItems (depth : Nat) : List Json → Text
  | [] => []
  | item :: items => ',' :: newLine depth ++ pretty depth item ++ prettyItems depth items

/-- A member: its key, a colon, its value. -/
def prettyMember (depth : Nat) : Spelling × Json → Text
  | (key, value) => quote key ++ ':' :: ' ' :: pretty depth value

/-- The members behind the first one. -/
def prettyMembers (depth : Nat) : List (Spelling × Json) → Text
  | [] => []
  | member :: members =>
    ',' :: newLine depth ++ prettyMember depth member ++ prettyMembers depth members

end

/-- The document that holds a value. -/
def print (value : Json) : Text :=
  pretty 0 value

end Recase.Json
