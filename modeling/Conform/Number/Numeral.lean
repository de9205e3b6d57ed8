/-
  Conform.Number.Numeral

  Decimal numerals in text: a sign, digits with at most one point, and an
  exponent. Two grammars share the parts, the strict one of documents and the
  lenient one of numbers typed into a text field.
-/

import Conform.Number.Basic

namespace Conform

/-- The value of a list of ASCII digits. -/
def digitsValue (digits : List Char) : Nat :=
  digits.foldl (fun n c => n * 10 + (c.toNat - '0'.toNat)) 0

/-- The value of the digits, when there is at least one and nothing else. -/
def digitsValue? (digits : List Char) : Option Nat :=
  if digits.isEmpty || !digits.all Char.isDigit then none else some (digitsValue digits)

/-- A decimal numeral as written. -/
structure Numeral where
  negative : Bool
  whole : List Char
  fraction : List Char
  exponent : Int

namespace Numeral

/-- The nearest binary64 number, if it is finite. -/
def toBinary64? (n : Numeral) : Option Binary64 :=
  Binary64.ofDecimal? n.negative (digitsValue (n.whole ++ n.fraction))
    (n.exponent - n.fraction.length)

/-- A sign at the front, and whether it is a minus. -/
def takeSign : List Char → Bool × List Char
  | '-' :: rest => (true, rest)
  | '+' :: rest => (false, rest)
  | rest => (false, rest)

/-- The digits at the front and what follows them. -/
def takeDigits (cs : List Char) : List Char × List Char :=
  (cs.takeWhile Char.isDigit, cs.dropWhile Char.isDigit)

/-- An exponent part `e`, sign, digits at the front. `none` is an exponent
    without digits; no exponent part counts as zero. -/
def takeExponent : List Char → Option (Int × List Char)
  | c :: cs =>
    if c = 'e' || c = 'E' then
      let (negative, rest) := takeSign cs
      let (digits, rest) := takeDigits rest
      if digits.isEmpty then none
      else some (if negative then -(digitsValue digits : Int) else digitsValue digits, rest)
    else some (0, c :: cs)
  | [] => some (0, [])

/-- The lenient grammar: either side of the point may lack its digits. -/
def ofText? (cs : List Char) : Option Numeral :=
  let (negative, rest) := takeSign cs
  let (whole, rest) := takeDigits rest
  let (fraction, rest) := match rest with
    | '.' :: rest => takeDigits rest
    | rest => ([], rest)
  if whole.isEmpty && fraction.isEmpty then none
  else match takeExponent rest with
    | some (exponent, []) => some ⟨negative, whole, fraction, exponent⟩
    | _ => none

end Numeral

/-- A signed integer in text; a sign of either kind may stand in front. -/
def signedInt? (cs : List Char) : Option Int :=
  let (negative, digits) := Numeral.takeSign cs
  match digitsValue? digits with
  | none => none
  | some n =>
    let i : Int := if negative then -(n : Int) else n
    if Number.leastInt ≤ i ∧ i ≤ Number.greatestSigned then some i else none

/-- The greatest position that a path can name, 2^64 - 1. -/
def greatestIndex : Nat := 18446744073709551615

/-- An unsigned position in text; a plus sign may stand in front. -/
def position? (cs : List Char) : Option Nat :=
  let digits := match cs with
    | '+' :: rest => rest
    | rest => rest
  match digitsValue? digits with
  | none => none
  | some n => if n ≤ greatestIndex then some n else none

end Conform
