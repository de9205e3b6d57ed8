/-
  Conform.Number.Shortest

  The fewest decimal digits that read back as a given binary64 number. The
  numbers that round to it form an interval; on the grids of 1, 2, 3, ... digits
  the two points next to the number are tried, and the first grid with a point
  in the interval gives the digits. Of two points the nearer counts; which one
  an exact tie goes to is up to the notation.
-/

import Conform.Number.Binary64

namespace Conform

/-- The decimal number `digits * 10 ^ exponent`. -/
structure Decimal where
  digits : Nat
  exponent : Int
  deriving DecidableEq, Repr

namespace Decimal

/-- The same number with no trailing zero among the digits. The fuel bounds
    the number of zeros. -/
def dropZeros (fuel : Nat) (d : Decimal) : Decimal :=
  match fuel with
  | 0 => d
  | fuel + 1 =>
    if d.digits ≠ 0 ∧ d.digits % 10 = 0 then
      dropZeros fuel ⟨d.digits / 10, d.exponent + 1⟩
    else d

end Decimal

/-- Which of two grid points at the same distance is taken. -/
inductive TieRule where
  | toEven
  | awayFromZero
  deriving DecidableEq, Repr

/-- Whether the lower of two neighbours is taken on a tie. -/
def TieRule.takesLower (tie : TieRule) (lower : Nat) : Bool :=
  match tie with
  | toEven => lower % 2 == 0
  | awayFromZero => false

namespace Binary64

/-- The magnitudes that read back as one positive number, in quarter units. -/
structure ReadBack where
  center : Nat
  low : Nat
  high : Nat
  /-- Whether the two ends read back too. -/
  closed : Bool

/-- Half the gap to each neighbour. Below a power of two the gap is half as
    wide, and the ends round to the number itself when its last bit is zero. -/
def readBack (x : Binary64) : ReadBack :=
  let n := x.magnitude
  let k := excessBits n
  let gap := 1 <<< k
  let below := if n = 1 <<< n.log2 ∧ 0 < k then gap else 2 * gap
  { center := 4 * n
    low := 4 * n - below
    high := 4 * n + 2 * gap
    closed := n / gap % 2 == 0 }

/-- Quarter units in one. -/
def quartersPerOne : Nat := 4 * unitsPerOne

/-- `10 ^ e` as a fraction. -/
def tenPower (e : Int) : Nat × Nat :=
  if 0 ≤ e then (Nat.pow 10 e.toNat, 1) else (1, Nat.pow 10 (-e).toNat)

/-- The exponent of the first decimal digit of a positive number. The estimate
    from the binary exponent is right or one too small. -/
def leadingExponent (x : Binary64) : Int :=
  let estimate := ((x.magnitude.log2 : Int) - unitExponent) * 30103 / 100000
  let (num, den) := tenPower (estimate + 1)
  if num * unitsPerOne ≤ x.magnitude * den then estimate + 1 else estimate

/-- The better of the two grid points at `10 ^ e` next to the number, if one
    reads back. -/
def gridPoint? (tie : TieRule) (r : ReadBack) (e : Int) : Option Nat :=
  let (num, den) := tenPower e
  let step := num * quartersPerOne
  let center := r.center * den
  let inside (c : Nat) : Bool :=
    if r.closed then r.low * den ≤ c * step && c * step ≤ r.high * den
    else r.low * den < c * step && c * step < r.high * den
  let below := center / step
  let above := below + 1
  match 0 < below && inside below, inside above with
  | true, true =>
    let toBelow := center - below * step
    let toAbove := above * step - center
    if toBelow < toAbove then some below
    else if toAbove < toBelow then some above
    else if tie.takesLower below then some below
    else some above
  | true, false => some below
  | false, true => some above
  | false, false => none

/-- The shortest digits of a positive magnitude; the sign plays no part. -/
def shortest (tie : TieRule) (x : Binary64) : Decimal :=
  let r := x.readBack
  let top := x.leadingExponent
  let found := (List.range 17).findSome? fun (count : Nat) =>
    let e := top - count
    (gridPoint? tie r e).map fun digits => Decimal.mk digits e
  (found.getD ⟨0, 0⟩).dropZeros 20

end Binary64

end Conform
