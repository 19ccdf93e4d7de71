import Recase.Character.Alphabetic
import Recase.Character.Numeric
import Recase.Text

/-!
# Words and white space

Identifiers are made of letters, numbers and the underscore, and a number may not come first.  The
words of running text are made of the same characters, but for those that version 17.0 of the
Unicode character database added to the letters and numbers of version 16.0.  No character of
version 16.0 became a letter or a number later.

White space has the property White_Space, in version 17.0.
-/

namespace Recase.Character

/-! ## White space -/

/-- The white-space characters, ascending and apart. -/
def blankRanges : List CodeRange :=
  [⟨0x9, 0xD⟩, ⟨0x20, 0x20⟩, ⟨0x85, 0x85⟩, ⟨0xA0, 0xA0⟩, ⟨0x1680, 0x1680⟩, ⟨0x2000, 0x200A⟩,
   ⟨0x2028, 0x2029⟩, ⟨0x202F, 0x202F⟩, ⟨0x205F, 0x205F⟩, ⟨0x3000, 0x3000⟩]

/-- Whether a character is white space. -/
def isBlank (c : Char) : Bool :=
  CodeRange.covers blankRanges c.toNat

/-! ## Words -/

/-- The letters and numbers that are new in version 17.0, ascending and apart. -/
def recentRanges : List CodeRange :=
  [⟨0x88F, 0x88F⟩, ⟨0xC5C, 0xC5C⟩, ⟨0xCDC, 0xCDC⟩, ⟨0xA7CE, 0xA7CF⟩, ⟨0xA7D2, 0xA7D2⟩,
   ⟨0xA7D4, 0xA7D4⟩, ⟨0xA7F1, 0xA7F1⟩, ⟨0x10940, 0x10959⟩, ⟨0x10EC5, 0x10EC7⟩, ⟨0x10EFA, 0x10EFB⟩,
   ⟨0x11B60, 0x11B67⟩, ⟨0x11DB0, 0x11DDB⟩, ⟨0x11DE0, 0x11DE9⟩, ⟨0x16EA0, 0x16EB8⟩,
   ⟨0x16EBB, 0x16ED3⟩, ⟨0x16FF2, 0x16FF6⟩, ⟨0x187F8, 0x187FF⟩, ⟨0x18D09, 0x18D1E⟩,
   ⟨0x18D80, 0x18DF2⟩, ⟨0x1E6C0, 0x1E6DE⟩, ⟨0x1E6E0, 0x1E6F5⟩, ⟨0x1E6FE, 0x1E6FF⟩,
   ⟨0x2B73A, 0x2B73F⟩, ⟨0x2CEA2, 0x2CEAD⟩, ⟨0x323B0, 0x33479⟩]

/-- Whether a character is a letter or a number since version 17.0 only. -/
def isRecent (c : Char) : Bool :=
  CodeRange.covers recentRanges c.toNat

/-- Whether a character is a letter or a number. -/
def isAlphanumeric (c : Char) : Bool :=
  isAlphabetic c || isNumeric c

/-- Whether a character may be the first one of an identifier. -/
def isWordStart (c : Char) : Bool :=
  c == '_' || isAlphabetic c

/-- Whether a character may occur in an identifier. -/
def isWord (c : Char) : Bool :=
  c == '_' || isAlphanumeric c

/-- Whether a character may occur in a word of running text.  Such words keep to version 16.0 of the
Unicode character database, while identifiers follow version 17.0. -/
def isTextWord (c : Char) : Bool :=
  isWord c && !isRecent c

/-- Whatever starts an identifier may also continue one. -/
theorem isWord_of_isWordStart {c : Char} (starts : isWordStart c) : isWord c := by
  simp only [isWordStart, isWord, isAlphanumeric, Bool.or_eq_true] at *
  exact starts.imp id Or.inl

/-- Whatever may occur in a word of running text may also occur in an identifier. -/
theorem isWord_of_isTextWord {c : Char} (isText : isTextWord c) : isWord c :=
  (Bool.and_eq_true_iff.mp isText).1

/-- Whether a text is an identifier: a word that does not begin with a number. -/
def isIdentifier : Text → Bool
  | [] => false
  | first :: rest => isWordStart first && rest.all isWord

/-- Identifiers are words. -/
theorem isWord_of_isIdentifier {text : List Char} (identifier : isIdentifier text) {c : Char}
    (member : c ∈ text) : isWord c := by
  cases text with
  | nil => cases member
  | cons first rest =>
      obtain ⟨starts, others⟩ := Bool.and_eq_true_iff.mp identifier
      rcases List.mem_cons.mp member with rfl | later
      · exact isWord_of_isWordStart starts
      · exact List.all_eq_true.mp others c later

end Recase.Character
