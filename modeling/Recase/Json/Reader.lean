import Recase.Json
import Recase.Text.Hexadecimal

/-!
# Reading JSON

A document is cut into symbols, and the symbols are put together by a machine with a stack of open
brackets.  How deep the brackets nest does not matter, nor does how large the numbers are.  Nothing
may follow the value but blanks.
-/

namespace Recase.Json

/-- Whether a character may stand between two symbols. -/
def isBlank (c : Char) : Bool :=
  c == ' ' || c == '\t' || c == '\n' || c == '\r'

/-! ## Strings -/

/-- The value of four hexadecimal digits. -/
def hexUnit? (a b c d : Char) : Option Nat := do
  let digits ← [a, b, c, d].mapM Text.digitValue?
  pure (digits.foldl (fun value digit => 0x10 * value + digit) 0)

/-- The character that a letter behind a backslash stands for. -/
def unescape? : Char → Option Char
  | '"' => some '"'
  | '\\' => some '\\'
  | '/' => some '/'
  | 'b' => some '\x08'
  | 'f' => some '\x0c'
  | 'n' => some '\n'
  | 'r' => some '\r'
  | 't' => some '\t'
  | _ => none

/-- The codes that a string is written with, and the text behind its closing quotation mark.  An
escaped code may be half of a surrogate pair. -/
def readCodes? : Text → Option (List Nat × Text)
  | [] => none
  | '"' :: rest => some ([], rest)
  | '\\' :: 'u' :: a :: b :: c :: d :: rest => do
    let code ← hexUnit? a b c d
    let (codes, after) ← readCodes? rest
    pure (code :: codes, after)
  | '\\' :: letter :: rest => do
    let c ← unescape? letter
    let (codes, after) ← readCodes? rest
    pure (c.toNat :: codes, after)
  | c :: rest =>
    if c.toNat < 0x20 then
      none
    else do
      let (codes, after) ← readCodes? rest
      pure (c.toNat :: codes, after)

/-- Whether a code is the first half of a surrogate pair. -/
def isHighSurrogate (code : Nat) : Bool :=
  0xD800 ≤ code && code < 0xDC00

/-- Whether a code is the second half of a surrogate pair. -/
def isLowSurrogate (code : Nat) : Bool :=
  0xDC00 ≤ code && code < 0xE000

/-- The code of the character that a surrogate pair stands for. -/
def pairCode (high low : Nat) : Nat :=
  0x10000 + 0x400 * (high - 0xD800) + (low - 0xDC00)

/-- The text that a sequence of codes spells.  Half of a surrogate pair spells nothing. -/
def spell : List Nat → Spelling
  | [] => some []
  | high :: low :: codes =>
    if isHighSurrogate high && isLowSurrogate low then
      (spell codes).map (Char.ofNat (pairCode high low) :: ·)
    else if isHighSurrogate high || isLowSurrogate high then
      none
    else
      (spell (low :: codes)).map (Char.ofNat high :: ·)
  | [code] =>
    if isHighSurrogate code || isLowSurrogate code then none else some [Char.ofNat code]

/-! ## Numbers -/

/-- One digit or more. -/
def readDigits? (text : Text) : Option (Text × Text) :=
  match text.takeWhile Char.isDigit with
  | [] => none
  | digits => some (digits, text.dropWhile Char.isDigit)

/-- The digits in front of the point.  A zero stands alone. -/
def readWhole? : Text → Option (Text × Text)
  | '0' :: rest => some (['0'], rest)
  | text => readDigits? text

/-- The point with the digits behind it, if there is one. -/
def readFraction? : Text → Option (Text × Text)
  | '.' :: rest => (readDigits? rest).map fun (digits, after) => ('.' :: digits, after)
  | text => some ([], text)

/-- The sign of an exponent, if there is one. -/
def readSign : Text → Text × Text
  | '+' :: rest => (['+'], rest)
  | '-' :: rest => (['-'], rest)
  | text => ([], text)

/-- The exponent, if there is one. -/
def readExponent? : Text → Option (Text × Text)
  | c :: rest =>
    if c = 'e' ∨ c = 'E' then
      (readDigits? (readSign rest).2).map fun (digits, after) =>
        (c :: (readSign rest).1 ++ digits, after)
    else
      some ([], c :: rest)
  | [] => some ([], [])

/-- A number without its sign. -/
def readMagnitude? (text : Text) : Option (Text × Text) := do
  let (whole, text) ← readWhole? text
  let (fraction, text) ← readFraction? text
  let (exponent, text) ← readExponent? text
  pure (whole ++ fraction ++ exponent, text)

/-- A number. -/
def readNumber? : Text → Option (Text × Text)
  | '-' :: rest => (readMagnitude? rest).map fun (written, after) => ('-' :: written, after)
  | text => readMagnitude? text

/-! ## Symbols -/

/-- The symbols that a document consists of.  A value without parts is one symbol. -/
inductive Symbol where
  | openArray
  | closeArray
  | openObject
  | closeObject
  | colon
  | comma
  | string (spelling : Spelling)
  | scalar (value : Json)

/-- The rest of a text behind a word that it begins with. -/
def behind? (word text : Text) : Option Text :=
  if word.isPrefixOf text then some (text.drop word.length) else none

/-- The symbol at the beginning of a text, and the text behind it. -/
def readSymbol? (text : Text) : Option (Symbol × Text) :=
  match text with
  | '[' :: rest => some (.openArray, rest)
  | ']' :: rest => some (.closeArray, rest)
  | '\x7b' :: rest => some (.openObject, rest)
  | '\x7d' :: rest => some (.closeObject, rest)
  | ':' :: rest => some (.colon, rest)
  | ',' :: rest => some (.comma, rest)
  | '"' :: rest => (readCodes? rest).map fun (codes, after) => (.string (spell codes), after)
  | 'n' :: rest => (behind? ['u', 'l', 'l'] rest).map fun after => (.scalar .null, after)
  | 't' :: rest => (behind? ['r', 'u', 'e'] rest).map fun after => (.scalar (.bool true), after)
  | 'f' :: rest =>
    (behind? ['a', 'l', 's', 'e'] rest).map fun after => (.scalar (.bool false), after)
  | text => (readNumber? text).map fun (written, after) => (.scalar (.number written), after)

theorem length_lt_of_readCodes? {text after : Text} {codes : List Nat}
    (found : readCodes? text = some (codes, after)) : after.length < text.length := by
  fun_induction readCodes? text generalizing codes after with
  | case1 => cases found
  | case2 => cases found; simp
  | case3 a b c d rest ih | case4 letter rest _ ih =>
      simp only [Option.bind_eq_bind, Option.bind_eq_some_iff] at found
      obtain ⟨_, _, ⟨codes, behind⟩, read, equal⟩ := found
      cases equal
      have := ih read
      simp only [List.length_cons]
      omega
  | case5 => cases found
  | case6 c rest _ _ _ _ ih =>
      simp only [Option.bind_eq_bind, Option.bind_eq_some_iff] at found
      obtain ⟨⟨codes, behind⟩, read, equal⟩ := found
      cases equal
      have := ih read
      simp only [List.length_cons]
      omega

theorem length_lt_of_readDigits? {text digits after : Text}
    (found : readDigits? text = some (digits, after)) : after.length < text.length := by
  unfold readDigits? at found
  split at found
  · cases found
  · next digits nonempty =>
      cases found
      have := congrArg List.length (@List.takeWhile_append_dropWhile _ Char.isDigit text)
      have := List.length_pos_iff.mpr nonempty
      simp only [List.length_append] at *
      omega

theorem length_lt_of_readWhole? {text digits after : Text}
    (found : readWhole? text = some (digits, after)) : after.length < text.length := by
  unfold readWhole? at found
  split at found
  · cases found; simp
  · exact length_lt_of_readDigits? found

theorem length_le_of_readFraction? {text digits after : Text}
    (found : readFraction? text = some (digits, after)) : after.length ≤ text.length := by
  unfold readFraction? at found
  split at found
  · obtain ⟨⟨digits, behind⟩, read, equal⟩ := Option.map_eq_some_iff.mp found
    cases equal
    have := length_lt_of_readDigits? read
    simp only [List.length_cons]
    omega
  · cases found; simp

theorem length_readSign_le (text : Text) : (readSign text).2.length ≤ text.length := by
  unfold readSign
  split <;> simp

theorem length_le_of_readExponent? {text digits after : Text}
    (found : readExponent? text = some (digits, after)) : after.length ≤ text.length := by
  unfold readExponent? at found
  split at found
  · next c rest =>
      split at found
      · obtain ⟨⟨digits, behind⟩, read, equal⟩ := Option.map_eq_some_iff.mp found
        cases equal
        have := length_lt_of_readDigits? read
        have := length_readSign_le rest
        simp only [List.length_cons]
        omega
      · cases found; simp
  · cases found; simp

theorem length_lt_of_readMagnitude? {text written after : Text}
    (found : readMagnitude? text = some (written, after)) : after.length < text.length := by
  simp only [readMagnitude?, Option.bind_eq_bind, Option.bind_eq_some_iff] at found
  obtain ⟨⟨_, _⟩, whole, ⟨_, _⟩, fraction, ⟨_, _⟩, exponent, equal⟩ := found
  cases equal
  have := length_lt_of_readWhole? whole
  have := length_le_of_readFraction? fraction
  have := length_le_of_readExponent? exponent
  dsimp only at *
  omega

theorem length_lt_of_readNumber? {text written after : Text}
    (found : readNumber? text = some (written, after)) : after.length < text.length := by
  unfold readNumber? at found
  split at found
  · obtain ⟨⟨_, _⟩, read, equal⟩ := Option.map_eq_some_iff.mp found
    cases equal
    have := length_lt_of_readMagnitude? read
    simp only [List.length_cons]
    omega
  · exact length_lt_of_readMagnitude? found

theorem length_le_of_behind? {word text after : Text} (found : behind? word text = some after) :
    after.length ≤ text.length := by
  unfold behind? at found
  split at found
  · cases found; simp
  · cases found

/-- Every symbol takes at least one character. -/
theorem length_lt_of_readSymbol? {text after : Text} {symbol : Symbol}
    (found : readSymbol? text = some (symbol, after)) : after.length < text.length := by
  unfold readSymbol? at found
  split at found
  case h_7 =>
    obtain ⟨⟨_, _⟩, read, equal⟩ := Option.map_eq_some_iff.mp found
    cases equal
    have := length_lt_of_readCodes? read
    simp only [List.length_cons]
    omega
  case h_11 =>
    obtain ⟨⟨_, _⟩, read, equal⟩ := Option.map_eq_some_iff.mp found
    cases equal
    exact length_lt_of_readNumber? read
  case h_8 | h_9 | h_10 =>
    obtain ⟨_, read, equal⟩ := Option.map_eq_some_iff.mp found
    cases equal
    have := length_le_of_behind? read
    simp only [List.length_cons]
    omega
  all_goals cases found; simp

/-- The symbols of a document. -/
def readSymbols? (text : Text) : Option (List Symbol) :=
  match _begins : text.dropWhile isBlank with
  | [] => some []
  | first :: rest =>
    match _read : readSymbol? (first :: rest) with
    | none => none
    | some (symbol, after) => (readSymbols? after).map (symbol :: ·)
termination_by text.length
decreasing_by
  have := length_lt_of_readSymbol? _read
  have := (List.dropWhile_sublist (l := text) isBlank).length_le
  rw [_begins] at this
  omega

/-! ## Values -/

/-- A bracket that is still open, with what it holds so far, the last part first.  An object may
wait for the value of a key. -/
inductive Frame where
  | array (items : List Json)
  | object (members : List (Spelling × Json))
  | member (members : List (Spelling × Json)) (key : Spelling)

/-- What may come next.  Behind the value of the document nothing may. -/
inductive Expectation where
  | value
  | valueOrClose
  | key
  | keyOrClose
  | colon
  | commaOrClose
  | nothing (value : Json)

/-- A document that has been read up to some symbol, with its open brackets, innermost first. -/
structure Progress where
  frames : List Frame
  expecting : Expectation

namespace Progress

/-- No symbol has been read. -/
def start : Progress where
  frames := []
  expecting := .value

/-- A value is complete: it goes into the innermost bracket. -/
def deliver (value : Json) : List Frame → Option Progress
  | [] => some { frames := [], expecting := .nothing value }
  | .array items :: frames =>
    some { frames := .array (value :: items) :: frames, expecting := .commaOrClose }
  | .member members key :: frames =>
    some { frames := .object ((key, value) :: members) :: frames, expecting := .commaOrClose }
  | .object _ :: _ => none

/-- A value begins with this symbol. -/
def beginValue (frames : List Frame) : Symbol → Option Progress
  | .openArray => some { frames := .array [] :: frames, expecting := .valueOrClose }
  | .openObject => some { frames := .object [] :: frames, expecting := .keyOrClose }
  | .string spelling => deliver (.string spelling) frames
  | .scalar value => deliver value frames
  | _ => none

/-- A member begins with this symbol. -/
def beginMember : List Frame → Symbol → Option Progress
  | .object members :: frames, .string key =>
    some { frames := .member members key :: frames, expecting := .colon }
  | _, _ => none

/-- The innermost bracket closes with this symbol. -/
def close : List Frame → Symbol → Option Progress
  | .array items :: frames, .closeArray => deliver (.array items.reverse) frames
  | .object members :: frames, .closeObject => deliver (.object members.reverse) frames
  | _, _ => none

/-- Go on behind a comma. -/
def next : List Frame → Option Progress
  | .array items :: frames => some { frames := .array items :: frames, expecting := .value }
  | .object members :: frames => some { frames := .object members :: frames, expecting := .key }
  | _ => none

/-- Take one symbol. -/
def step (progress : Progress) (symbol : Symbol) : Option Progress :=
  match progress.expecting, symbol with
  | .value, symbol => beginValue progress.frames symbol
  | .valueOrClose, .closeArray => close progress.frames .closeArray
  | .valueOrClose, symbol => beginValue progress.frames symbol
  | .key, symbol => beginMember progress.frames symbol
  | .keyOrClose, .closeObject => close progress.frames .closeObject
  | .keyOrClose, symbol => beginMember progress.frames symbol
  | .colon, .colon => some { progress with expecting := .value }
  | .commaOrClose, .comma => next progress.frames
  | .commaOrClose, symbol => close progress.frames symbol
  | _, _ => none

/-- The value of a document that has been read to its end. -/
def result? (progress : Progress) : Option Json :=
  match progress.expecting with
  | .nothing value => some value
  | _ => none

end Progress

/-- The value that a document holds.  Nothing if the document is malformed. -/
def read? (document : Text) : Option Json := do
  let symbols ← readSymbols? document
  let progress ← symbols.foldlM Progress.step .start
  progress.result?

end Recase.Json
