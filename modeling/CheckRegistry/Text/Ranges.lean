/-!
# Ranges of code points

A property of characters is written down as a list of code point ranges in increasing order.
`inRanges` searches such a list and stops at the first range that starts after the character.
-/

namespace CheckRegistry.Text

/-- Inclusive ranges of code points, in increasing order and without overlap. -/
abbrev Ranges := List (Nat × Nat)

/-- Whether a code point lies in one of the ranges. -/
def inRanges : Ranges → Nat → Bool
  | [], _ => false
  | (first, last) :: rest, n =>
    if n < first then false else if n ≤ last then true else inRanges rest n

end CheckRegistry.Text
