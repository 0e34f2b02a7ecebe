/-!
# Ranges of code points

A class of characters is a list of code point ranges in increasing order, both ends included.
-/

namespace Promotions.Text

/-- Whether `n` lies in one of the ranges. The first range above `n` ends the search. -/
def inRanges (n : Nat) : List (Nat × Nat) → Bool
  | [] => false
  | (first, last) :: ranges =>
    if n < first then false else if n ≤ last then true else inRanges n ranges

end Promotions.Text
