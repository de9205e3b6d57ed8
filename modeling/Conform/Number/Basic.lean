/-
  Conform.Number.Basic

  The numbers of a document. Integers and floats are kept apart, as a document
  writes them; comparisons that ignore the difference go through binary64.
-/

import Conform.Number.Binary64

namespace Conform

/-- An exact integer, or a finite binary64 number. -/
inductive Number where
  | int (i : Int)
  | float (x : Binary64)
  deriving DecidableEq

namespace Number

instance : Inhabited Number := ⟨int 0⟩

/-- The least integer that a document keeps exact, -2^63. -/
def leastInt : Int := -9223372036854775808

/-- The greatest integer that a document keeps exact, 2^64 - 1. -/
def greatestInt : Int := 18446744073709551615

/-- The greatest integer of a signed 64-bit word, 2^63 - 1. -/
def greatestSigned : Int := 9223372036854775807

/-- The number as a binary64; long integers are rounded. -/
def toBinary64 : Number → Binary64
  | int i => Binary64.ofInt i
  | float x => x

/-- Equality by numeric value, after rounding to binary64. -/
def equals (m n : Number) : Bool := m.toBinary64.equals n.toBinary64

/-- Equality that keeps integers and floats apart. -/
def same : Number → Number → Bool
  | int i, int j => i == j
  | float x, float y => x.equals y
  | _, _ => false

/-- Whether there is no fractional part. -/
def isWhole : Number → Bool
  | int _ => true
  | float x => x.isWhole

/-- Whole numbers below this bound turn into integers. -/
def wholeLimit : Nat := 9000000000000000

/-- A computed number: an integer when it is whole and of moderate size, and
    a float otherwise. A negative zero stays a float. -/
def ofComputed (x : Binary64) : Number :=
  if x.isWhole && x.magnitude < wholeLimit * unitsPerOne && !(x.negative && x.magnitude == 0) then
    int x.toInt
  else float x

end Number

end Conform
