/-
  Conform.Text.CharRanges

  Sets of characters as ascending ranges of code points.
-/

namespace Conform

/-- Inclusive ranges of code points, in ascending order. -/
abbrev CharRanges := List (Nat × Nat)

namespace CharRanges

/-- Whether a code point lies in one of the ranges. -/
def has (ranges : CharRanges) (code : Nat) : Bool :=
  match ranges with
  | [] => false
  | (first, last) :: rest => if code < first then false else code ≤ last || has rest code

def hasChar (ranges : CharRanges) (c : Char) : Bool := ranges.has c.toNat

end CharRanges

end Conform
