/-
  Conform.Text.Shown

  Texts as diagnostics show them: in quotes, with everything escaped that would
  not be seen as itself.
-/

import Conform.Text.ClusterTables

namespace Conform

/-- Letters without a shape, which only hold a place in a syllable. -/
def fillerRanges : CharRanges :=
  [(0x115F, 0x1160), (0x3164, 0x3164), (0xFFA0, 0xFFA0)]

/-- Extending characters that have a place and a shape of their own. -/
def standingMarkRanges : CharRanges := [(0xFF9E, 0xFF9F)]

/-- Whether a character is not seen as itself: it has no shape, or it is drawn
    upon the one before it. -/
def isUnseen (c : Char) : Bool :=
  unprintableRanges.hasChar c || fillerRanges.hasChar c ||
    (extendingRanges.hasChar c && !standingMarkRanges.hasChar c)

/-- A character by its code point. -/
def codeEscape (c : Char) : List Char :=
  ['\\', 'u', '\x7b'] ++ (Nat.toDigits 16 c.toNat) ++ ['\x7d']

/-- A character inside a shown text. -/
def shownChar (c : Char) : List Char :=
  if c = '\x00' then ['\\', '0']
  else if c = '\t' then ['\\', 't']
  else if c = '\r' then ['\\', 'r']
  else if c = '\n' then ['\\', 'n']
  else if c = '\\' then ['\\', '\\']
  else if c = '"' then ['\\', '"']
  else if isUnseen c then codeEscape c
  else [c]

/-- A text in quotes. -/
def shownText (s : String) : String :=
  String.ofList ('"' :: s.toList.flatMap shownChar ++ ['"'])

end Conform
