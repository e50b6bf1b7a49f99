/-!
# Sets of characters as ranges of code points

Properties of characters that Unicode lists by the hundred are kept as tables of
ranges. A table ascends, so a look-up stops at the first range that begins above
the code point in question.
-/

namespace FileLore.Text

/-- A set of characters as ascending ranges of code points, both ends included. -/
abbrev CodePoints := List (Nat × Nat)

/-- Whether the code point `n` lies in one of the ranges. -/
def CodePoints.contains : CodePoints → Nat → Bool
  | [], _ => false
  | (low, high) :: rest, n =>
    if n < low then false else n ≤ high || CodePoints.contains rest n

end FileLore.Text
