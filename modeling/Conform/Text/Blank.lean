/-
  Conform.Text.Blank

  White space: the characters with the property White_Space, and the trimming
  of a text by them.
-/

import Conform.Text.CharRanges

namespace Conform

/-- The characters with the property White_Space. -/
def blankRanges : CharRanges :=
  [(0x9, 0xD), (0x20, 0x20), (0x85, 0x85), (0xA0, 0xA0), (0x1680, 0x1680), (0x2000, 0x200A),
   (0x2028, 0x2029), (0x202F, 0x202F), (0x205F, 0x205F), (0x3000, 0x3000)]

def isBlank (c : Char) : Bool := blankRanges.hasChar c

/-- Blanks dropped from both ends. -/
def trimChars (cs : List Char) : List Char :=
  ((cs.dropWhile isBlank).reverse.dropWhile isBlank).reverse

/-- Blanks dropped from both ends of a text. -/
def trimText (s : String) : String := String.ofList (trimChars s.toList)

end Conform
