import Recase.Json.Printer
import Recase.Json.Reader
import Mathlib

/-!
# The grammar of JSON

One value can be written in many ways: blanks may stand around every symbol, and every character of
a string may be escaped.  The grammar says which texts write a value.  It does not refer to the
reader, and what is printed is one of the texts that it allows.
-/

namespace Recase.Json

/-! ## Strings -/

/-- Some codes spell a text: they are the codes of its characters, where a character beyond the
first plane may be replaced by the two halves of a surrogate pair. -/
inductive Spells : List Nat → Text → Prop where
  | nil : Spells [] []
  | character (c : Char) {codes : List Nat} {rest : Text} (behind : Spells codes rest) :
      Spells (c.toNat :: codes) (c :: rest)
  | pair (c : Char) (beyond : 0x10000 ≤ c.toNat) {codes : List Nat} {rest : Text}
      (behind : Spells codes rest) :
      Spells ([0xD800 + (c.toNat - 0x10000) / 0x400, 0xDC00 + (c.toNat - 0x10000) % 0x400] ++
        codes) (c :: rest)

/-- Four hexadecimal digits in either case are those of a code. -/
def IsCode (code : Nat) (digits : Text) : Prop :=
  code < 0x10000 ∧ digits.map Char.toLower = hexDigits code

/-- The letters that stand behind a backslash for one character, with that character. -/
def shortEscapes : List (Char × Char) :=
  [('"', '"'), ('\\', '\\'), ('/', '/'), ('b', '\x08'), ('f', '\x0c'), ('n', '\n'), ('r', '\r'),
    ('t', '\t')]

/-- What stands between the quotation marks of a string, with the codes that it is written for. -/
inductive WritesCodes : List Nat → Text → Prop where
  | nil : WritesCodes [] []
  | plain (c : Char) (visible : 0x20 ≤ c.toNat) (noQuote : c ≠ '"') (noEscape : c ≠ '\\')
      {codes : List Nat} {rest : Text} (behind : WritesCodes codes rest) :
      WritesCodes (c.toNat :: codes) (c :: rest)
  | short (letter c : Char) (listed : (letter, c) ∈ shortEscapes)
      {codes : List Nat} {rest : Text} (behind : WritesCodes codes rest) :
      WritesCodes (c.toNat :: codes) ('\\' :: letter :: rest)
  | code {code : Nat} {digits : Text} (written : IsCode code digits)
      {codes : List Nat} {rest : Text} (behind : WritesCodes codes rest) :
      WritesCodes (code :: codes) ('\\' :: 'u' :: digits ++ rest)

/-- A string that spells a text, or that spells none. -/
def WritesString (spelling : Spelling) (written : Text) : Prop :=
  ∃ codes inside, WritesCodes codes inside ∧ written = '"' :: inside ++ ['"'] ∧
    ∀ content, spelling = some content ↔ Spells codes content

/-! ## Numbers -/

/-- One digit or more. -/
def IsDigits (text : Text) : Prop :=
  text ≠ [] ∧ ∀ c ∈ text, c.isDigit = true

/-- Digits in front of a point: a zero, or digits that do not begin with a zero. -/
def IsWhole (text : Text) : Prop :=
  text = ['0'] ∨ IsDigits text ∧ text.head? ≠ some '0'

/-- A point with digits behind it, or nothing. -/
def IsFraction (text : Text) : Prop :=
  text = [] ∨ ∃ digits, IsDigits digits ∧ text = '.' :: digits

/-- A mark with digits behind it, which may have a sign, or nothing. -/
def IsExponent (text : Text) : Prop :=
  text = [] ∨ ∃ mark sign digits, (mark = 'e' ∨ mark = 'E') ∧
    (sign = [] ∨ sign = ['+'] ∨ sign = ['-']) ∧ IsDigits digits ∧ text = mark :: sign ++ digits

/-- A number. -/
inductive IsNumber : Text → Prop where
  | intro (sign whole fraction exponent : Text) (signed : sign = [] ∨ sign = ['-'])
      (counted : IsWhole whole) (divided : IsFraction fraction) (scaled : IsExponent exponent) :
      IsNumber (sign ++ whole ++ fraction ++ exponent)

/-! ## Values -/

/-- Whether a text consists of blanks. -/
def IsBlanks (text : Text) : Prop :=
  ∀ c ∈ text, isBlank c = true

/-- What the grammar speaks of.  An element is a value with blanks around it. -/
inductive Phrase where
  | value (value : Json)
  | element (value : Json)
  | elements (items : List Json)
  | member (key : Spelling) (value : Json)
  | members (members : List (Spelling × Json))

/-- The texts that a phrase may be written as. -/
inductive Writes : Phrase → Text → Prop where
  | null : Writes (.value .null) ['n', 'u', 'l', 'l']
  | bool (value : Bool) : Writes (.value (.bool value)) (boolName value)
  | number {written : Text} (number : IsNumber written) :
      Writes (.value (.number written)) written
  | string {spelling : Spelling} {written : Text} (string : WritesString spelling written) :
      Writes (.value (.string spelling)) written
  | noItems {blanks : Text} (blank : IsBlanks blanks) :
      Writes (.value (.array [])) ('[' :: blanks ++ [']'])
  | array {items : List Json} {inside : Text} (listed : Writes (.elements items) inside) :
      Writes (.value (.array items)) ('[' :: inside ++ [']'])
  | noMembers {blanks : Text} (blank : IsBlanks blanks) :
      Writes (.value (.object [])) ('\x7b' :: blanks ++ ['\x7d'])
  | object {members : List (Spelling × Json)} {inside : Text}
      (listed : Writes (.members members) inside) :
      Writes (.value (.object members)) ('\x7b' :: inside ++ ['\x7d'])
  | element {value : Json} {before written behind : Text} (front : IsBlanks before)
      (back : IsBlanks behind) (inside : Writes (.value value) written) :
      Writes (.element value) (before ++ written ++ behind)
  | lastItem {item : Json} {written : Text} (last : Writes (.element item) written) :
      Writes (.elements [item]) written
  | moreItems {item : Json} {items : List Json} {written others : Text}
      (first : Writes (.element item) written) (more : Writes (.elements items) others) :
      Writes (.elements (item :: items)) (written ++ ',' :: others)
  | member {key : Spelling} {value : Json} {before name behind written : Text}
      (front : IsBlanks before) (back : IsBlanks behind) (named : WritesString key name)
      (inside : Writes (.element value) written) :
      Writes (.member key value) (before ++ name ++ behind ++ ':' :: written)
  | lastMember {key : Spelling} {value : Json} {written : Text}
      (last : Writes (.member key value) written) : Writes (.members [(key, value)]) written
  | moreMembers {key : Spelling} {value : Json} {members : List (Spelling × Json)}
      {written others : Text} (first : Writes (.member key value) written)
      (more : Writes (.members members) others) :
      Writes (.members ((key, value) :: members)) (written ++ ',' :: others)

/-- The texts of documents that hold a value. -/
def Document (value : Json) (text : Text) : Prop :=
  Writes (.element value) text

end Recase.Json
