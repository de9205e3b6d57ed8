/-
  Conform.Text.Pattern.CharSet

  Sets of characters as a pattern describes them: ranges and named classes,
  put together by the operations on sets, and closed under a change of case
  where a pattern is blind to it.
-/

import Conform.Text.Blank
import Conform.Text.LetterCase
import Conform.Text.WordChars

namespace Conform

/-- The operations on two sets that a class can be written with. -/
inductive SetOp where
  | union
  | intersection
  | difference
  | symmetricDifference
  deriving DecidableEq, Repr

/-- Membership in the result, given membership in the two sets. -/
def SetOp.holds (op : SetOp) (left right : Bool) : Bool :=
  match op with
  | union => left || right
  | intersection => left && right
  | difference => left && !right
  | symmetricDifference => left != right

inductive CharSet where
  | empty
  | range (first last : Char)
  | word
  | digit
  | blank
  | complement (set : CharSet)
  | join (op : SetOp) (left right : CharSet)
  /-- All characters that differ from a member in case only. -/
  | anyCase (set : CharSet)
  deriving DecidableEq, Repr

namespace CharSet

def has : CharSet → Char → Bool
  | empty, _ => false
  | range first last, c => first ≤ c && c ≤ last
  | word, c => isWordChar c
  | digit, c => isDecimalDigit c
  | blank, c => isBlank c
  | complement set, c => !set.has c
  | join op left right, c => op.holds (left.has c) (right.has c)
  | anyCase set, c => set.has c || (caseMates c).any set.has

def single (c : Char) : CharSet := range c c

/-- Adds the characters of a second set. -/
def add (set more : CharSet) : CharSet :=
  match set with
  | empty => more
  | set => join .union set more

/-- The union of a list of sets. -/
def unionOf (sets : List CharSet) : CharSet := sets.foldl add empty

def ofRanges (ranges : List (Char × Char)) : CharSet :=
  unionOf (ranges.map fun (first, last) => range first last)

/-- The set itself, or its complement. -/
def negatedIf (negated : Bool) (set : CharSet) : CharSet :=
  if negated then complement set else set

/-- The set itself, or its closure under a change of case. -/
def foldedIf (anyCase : Bool) (set : CharSet) : CharSet :=
  if anyCase then .anyCase set else set

/-- A character as a pattern means it. -/
def literal (anyCase : Bool) (c : Char) : CharSet :=
  if anyCase then unionOf ((caseMates c).map single) else single c

/-! ## Named classes -/

/-- The class of an escaped letter. -/
def ofLetter? (c : Char) : Option CharSet :=
  match c with
  | 'w' => some word
  | 'W' => some (complement word)
  | 'd' => some digit
  | 'D' => some (complement digit)
  | 's' => some blank
  | 'S' => some (complement blank)
  | _ => none

def asciiLower : List (Char × Char) := [('a', 'z')]

def asciiUpper : List (Char × Char) := [('A', 'Z')]

def asciiDigits : List (Char × Char) := [('0', '9')]

/-- The ASCII class of a name. -/
def ofName? (name : String) : Option CharSet :=
  let letters := asciiUpper ++ asciiLower
  let ranges := match name with
    | "alnum" => some (asciiDigits ++ letters)
    | "alpha" => some letters
    | "ascii" => some [('\x00', '\x7f')]
    | "blank" => some [('\t', '\t'), (' ', ' ')]
    | "cntrl" => some [('\x00', '\x1f'), ('\x7f', '\x7f')]
    | "digit" => some asciiDigits
    | "graph" => some [('!', '~')]
    | "lower" => some asciiLower
    | "print" => some [(' ', '~')]
    | "punct" => some [('!', '/'), (':', '@'), ('[', '\x60'), ('\x7b', '~')]
    | "space" => some [('\t', '\r'), (' ', ' ')]
    | "upper" => some asciiUpper
    | "word" => some (asciiDigits ++ letters ++ [('_', '_')])
    | "xdigit" => some (asciiDigits ++ [('A', 'F'), ('a', 'f')])
    | _ => none
  ranges.map ofRanges

end CharSet

end Conform
