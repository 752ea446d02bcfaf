/-!
# Sets of characters given by ranges

A property of characters is a list of ranges of code points in increasing order, each given by its
first and its last code point.
-/

namespace BrightLexer

/-- Whether a code point lies in one of the ranges, which are in increasing order. -/
def inRanges (n : Nat) : List (Nat × Nat) → Bool
  | [] => false
  | (first, last) :: ranges => if n < first then false else n ≤ last || inRanges n ranges

end BrightLexer
