/-!
# Ranges of character codes

A character class is a list of ranges of codes, ascending and apart, so that a search may stop at
the first range that begins behind the code looked for.
-/

namespace Recase

/-- A closed range of codes. -/
structure CodeRange where
  first : Nat
  last : Nat

/-- Whether a code lies in one of the ranges, which have to be ascending. -/
def CodeRange.covers : List CodeRange → Nat → Bool
  | [], _ => false
  | range :: ranges, code =>
    if code < range.first then false
    else code ≤ range.last || covers ranges code

/-- Every `step`-th code of a closed range, the first one included. -/
structure SteppedRange where
  first : Nat
  last : Nat
  step : Nat

namespace SteppedRange

/-- Whether the range holds a code. -/
def contains (range : SteppedRange) (code : Nat) : Bool :=
  range.first ≤ code && code ≤ range.last && (code - range.first) % range.step == 0

/-- Whether one of the ranges, which have to be ascending, holds a code. -/
def covers : List SteppedRange → Nat → Bool
  | [], _ => false
  | range :: ranges, code =>
    if code < range.first then false
    else range.contains code || covers ranges code

end SteppedRange

end Recase
