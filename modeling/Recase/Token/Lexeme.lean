import Recase.Character.Word
import Recase.Text

/-!
# Lexemes

The extent of comments, literals and header names.  Each function is given the text behind the
first character of the lexeme and splits it where the lexeme ends; the lemma below it says that the
two parts give the text back.  Unterminated lexemes end at the latest with the text.
-/

namespace Recase.Lexeme

/-- A comment up to the end of its line, given the character before the text.  The line feed is no
part of the comment, nor is a carriage return right before it.  A line feed belongs to the comment
when a backslash precedes it, carriage returns not counted. -/
def lineComment (previous : Char) : Text → Text × Text
  | [] => ([], [])
  | '\r' :: '\n' :: rest =>
    if previous = '\\' then
      let (body, after) := lineComment '\n' rest
      ('\r' :: '\n' :: body, after)
    else
      ([], '\r' :: '\n' :: rest)
  | c :: rest =>
    if c = '\n' ∧ previous ≠ '\\' then
      ([], c :: rest)
    else
      let (body, after) := lineComment (if c = '\r' then previous else c) rest
      (c :: body, after)

@[simp] theorem lineComment_append (previous : Char) (text : Text) :
    (lineComment previous text).1 ++ (lineComment previous text).2 = text := by
  fun_induction lineComment previous text <;> simp_all

/-- A comment up to its closing mark, given the text from the star of the opening mark on.  That
star cannot be the star of the closing mark. -/
def blockComment : Text → Text × Text
  | [] => ([], [])
  | star :: rest =>
    let (body, after) := Text.through ['*', '/'] rest
    (star :: body, after)

@[simp] theorem blockComment_append (text : Text) :
    (blockComment text).1 ++ (blockComment text).2 = text := by
  cases text <;> simp [blockComment]

/-- A header name up to its closing bracket, or to the end of the line. -/
def headerName : Text → Text × Text
  | [] => ([], [])
  | c :: rest =>
    if c = '>' then ([c], rest)
    else if c = '\n' then ([], c :: rest)
    else
      let (body, after) := headerName rest
      (c :: body, after)

@[simp] theorem headerName_append (text : Text) :
    (headerName text).1 ++ (headerName text).2 = text := by
  fun_induction headerName text <;> simp_all

/-- A literal up to its closing quote, or to the end of the line.  A backslash takes the character
behind it into the literal, whatever it is. -/
def quoted (quote : Char) : Text → Text × Text
  | [] => ([], [])
  | '\\' :: escaped :: rest =>
    let (body, after) := quoted quote rest
    ('\\' :: escaped :: body, after)
  | c :: rest =>
    if c = '\n' then ([], c :: rest)
    else if c = quote then ([c], rest)
    else
      let (body, after) := quoted quote rest
      (c :: body, after)

@[simp] theorem quoted_append (quote : Char) (text : Text) :
    (quoted quote text).1 ++ (quoted quote text).2 = text := by
  fun_induction quoted quote text <;> simp_all

/-- The largest number of bytes of a raw-string delimiter. -/
def maxDelimiterBytes : Nat := 16

/-- Whether a text may stand between the quote and the parenthesis that open a raw string. -/
def isDelimiter (delimiter : Text) : Bool :=
  Text.byteCount delimiter ≤ maxDelimiterBytes &&
    delimiter.all fun c => !(Character.isBlank c || c == '\\' || c == ')' || c == '"')

/-- A raw string, given the text behind its opening quote: the delimiter, the parenthesis, and all
up to the closing parenthesis with the same delimiter and a quote.  Nothing if the opening is
malformed. -/
def rawString (text : Text) : Option (Text × Text) :=
  let delimiter := text.takeWhile (· != '(')
  match text.dropWhile (· != '(') with
  | [] => none
  | parenthesis :: rest =>
    if isDelimiter delimiter then
      let (body, after) := Text.through (')' :: delimiter ++ ['"']) rest
      some (delimiter ++ parenthesis :: body, after)
    else
      none

theorem rawString_append {text body after : Text} (found : rawString text = some (body, after)) :
    body ++ after = text := by
  unfold rawString at found
  simp only at found
  split at found
  · cases found
  · next parenthesis rest rest_eq =>
      split at found
      · simp only [Option.some.injEq, Prod.mk.injEq] at found
        obtain ⟨rfl, rfl⟩ := found
        simp only [List.append_assoc, List.cons_append, Text.through_append]
        rw [← rest_eq, List.takeWhile_append_dropWhile]
      · cases found

/-- Whether a character belongs to a number, given its two neighbours.  A sign belongs to it behind
the letter of an exponent, and a quote in front of a digit or letter. -/
def continuesNumber (previous c : Char) (next : Option Char) : Bool :=
  c.isAlphanum || c == '_' || c == '.' ||
    (c == '\'' && next.any Char.isAlphanum) ||
    ((c == '+' || c == '-') && (previous == 'e' || previous == 'E' || previous == 'p' ||
      previous == 'P'))

/-- The rest of a number, given the character before the text: digits, letters, underscores,
points, digit separators and signs of exponents. -/
def number (previous : Char) : Text → Text × Text
  | [] => ([], [])
  | c :: rest =>
    if continuesNumber previous c rest.head? then
      let (body, after) := number c rest
      (c :: body, after)
    else
      ([], c :: rest)

@[simp] theorem number_append (previous : Char) (text : Text) :
    (number previous text).1 ++ (number previous text).2 = text := by
  fun_induction number previous text <;> simp_all

/-- The words that may precede the quote of a string or a character. -/
def encodings : List Text :=
  [['L'], ['u'], ['U'], ['u', '8']]

/-- The words that may precede the quote of a raw string. -/
def rawEncodings : List Text :=
  [['R'], ['L', 'R'], ['u', 'R'], ['U', 'R'], ['u', '8', 'R']]

/-- A literal with an encoding word in front, given that word and the text behind it.  Nothing if
the two are no literal together. -/
def encoded (word text : Text) : Option (Text × Text) :=
  match text with
  | '"' :: rest =>
    if word ∈ rawEncodings then
      (rawString rest).map fun (body, after) => ('"' :: body, after)
    else if word ∈ encodings then
      let (body, after) := quoted '"' rest
      some ('"' :: body, after)
    else
      none
  | '\'' :: rest =>
    if word ∈ encodings then
      let (body, after) := quoted '\'' rest
      some ('\'' :: body, after)
    else
      none
  | _ => none

theorem encoded_append {word text body after : Text}
    (found : encoded word text = some (body, after)) : body ++ after = text := by
  unfold encoded at found
  split at found
  · next rest =>
      split at found
      · obtain ⟨⟨raw, behind⟩, raw_found, equal⟩ := Option.map_eq_some_iff.mp found
        cases equal
        simp [rawString_append raw_found]
      · split at found
        · cases found
          simp
        · cases found
  · split at found
    · cases found
      simp
    · cases found
  · cases found

end Recase.Lexeme
