/-!
# Texts

All text of the library is a list of characters, compared character by character through their
codes.  This is also the order of the UTF-8 bytes.
-/

namespace Recase

/-- A text, as the list of its characters. -/
abbrev Text := List Char

namespace Text

/-- The decimal digits of a number. -/
def ofNat (number : Nat) : Text :=
  Nat.toDigits 10 number

/-- Of two different texts one comes before the other. -/
theorem lt_of_not_lt {left right : Text} (notBefore : ¬ left < right) (different : left ≠ right) :
    right < left := by
  by_cases after : right < left
  · exact after
  · exact absurd (Std.Trichotomous.trichotomous left right notBefore after) different

/-- The number of bytes of a text in UTF-8. -/
def byteCount (text : Text) : Nat :=
  text.foldr (fun c count => c.utf8Size + count) 0

/-- Split a text behind the first occurrence of `needle`.  Without an occurrence all of the text
lies before the split. -/
def through (needle : Text) : Text → Text × Text
  | [] => ([], [])
  | c :: rest =>
    if needle.isPrefixOf (c :: rest) then
      (needle, (c :: rest).drop needle.length)
    else
      (c :: (through needle rest).1, (through needle rest).2)

/-- A split loses nothing and reorders nothing. -/
@[simp] theorem through_append (needle text : Text) :
    (through needle text).1 ++ (through needle text).2 = text := by
  induction text with
  | nil => rfl
  | cons c rest ih =>
      unfold through
      split
      · next found =>
          obtain ⟨after, split⟩ := List.isPrefixOf_iff_prefix.mp found
          simp [← split]
      · simpa using ih

/-- Cut a text at the occurrences of `separator`, taken from the left and without overlap.  An
empty separator cuts nowhere. -/
def cutAt (separator text : Text) : List Text :=
  match text with
  | [] => [[]]
  | c :: rest =>
    if separator ≠ [] ∧ separator.isPrefixOf (c :: rest) then
      [] :: cutAt separator ((c :: rest).drop separator.length)
    else
      match cutAt separator rest with
      | [] => [[c]]
      | piece :: pieces => (c :: piece) :: pieces
termination_by text.length
decreasing_by
  · rename_i cut
    have positive := List.length_pos_iff.mpr cut.1
    simp only [List.length_drop, List.length_cons]
    omega
  · simp

/-- Drop the leading characters of a class, and the trailing ones. -/
def trim (isOuter : Char → Bool) (text : Text) : Text :=
  ((text.dropWhile isOuter).reverse.dropWhile isOuter).reverse

end Text

end Recase
