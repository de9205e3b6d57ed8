/-
  Conform.Number.Binary64

  Finite binary64 numbers, held exactly: a sign and a magnitude counted in
  units of 2^-1074, the least positive binary64 number. Comparison is then
  comparison of integers, and every operation is exact arithmetic followed by
  one rounding to 53 significant bits.
-/

namespace Conform

/-! ## Magnitudes -/

/-- One unit is `2 ^ -unitExponent`. -/
def unitExponent : Nat := 1074

/-- The number of units in one. -/
def unitsPerOne : Nat := 1 <<< unitExponent

/-- The places of the last of 53 bits in the largest finite magnitude. -/
def topExponent : Nat := 2045

/-- The first integer of more than 53 bits. -/
def significandLimit : Nat := 9007199254740992

/-- The first magnitude that is too large to be finite, 2^1024 in units. -/
def magnitudeLimit : Nat := significandLimit <<< topExponent

/-- A magnitude is representable when it is finite and has at most 53
    significant bits. -/
def Representable (n : Nat) : Prop :=
  n < magnitudeLimit ∧ ∃ m k, m ≤ significandLimit ∧ n = m <<< k

theorem magnitudeLimit_pos : 0 < magnitudeLimit := by
  unfold magnitudeLimit
  rw [Nat.shiftLeft_eq]
  exact Nat.mul_pos (by decide) (Nat.two_pow_pos _)

theorem representable_zero : Representable 0 :=
  ⟨magnitudeLimit_pos, 0, 0, Nat.zero_le _, rfl⟩

/-- The integer nearest to a quotient; a half goes to the even neighbour. -/
def roundQuotient (num den : Nat) : Nat :=
  let q := num / den
  let r := num % den
  if 2 * r < den then q
  else if den < 2 * r then q + 1
  else if q % 2 = 0 then q
  else q + 1

theorem roundQuotient_le (num den : Nat) : roundQuotient num den ≤ num / den + 1 := by
  unfold roundQuotient
  dsimp only
  split
  · omega
  · split
    · omega
    · split <;> omega

/-- The number of low bits that a magnitude must give up to keep 53. -/
def excessBits (n : Nat) : Nat := n.log2 - 52

theorem div_excess_lt (n : Nat) : n / 1 <<< excessBits n < significandLimit := by
  have hlimit : significandLimit = 1 <<< 53 := by decide
  rw [hlimit, Nat.one_shiftLeft, Nat.one_shiftLeft, Nat.div_lt_iff_lt_mul (Nat.two_pow_pos _),
    ← Nat.pow_add]
  refine Nat.lt_of_lt_of_le Nat.lt_log2_self ?_
  exact Nat.pow_le_pow_right (by decide) (by unfold excessBits; omega)

/-- The quotient `num / den`, rounded to 53 significant bits. -/
def roundMagnitude (num den : Nat) : Nat :=
  let k := excessBits (num / den)
  roundQuotient num (den <<< k) <<< k

theorem roundMagnitude_eq_shiftLeft (num den : Nat) :
    ∃ m k, m ≤ significandLimit ∧ roundMagnitude num den = m <<< k := by
  refine ⟨_, _, ?_, rfl⟩
  have hle := roundQuotient_le num (den <<< excessBits (num / den))
  have hlt := div_excess_lt (num / den)
  rw [Nat.div_div_eq_div_mul, Nat.one_shiftLeft, ← Nat.shiftLeft_eq] at hlt
  omega

/-! ## Numbers -/

/-- A finite binary64 number. Zero keeps its sign. -/
structure Binary64 where
  negative : Bool
  magnitude : Nat
  representable : Representable magnitude
  deriving DecidableEq

namespace Binary64

def zero : Binary64 := ⟨false, 0, representable_zero⟩

instance : Inhabited Binary64 := ⟨zero⟩

/-- The value as a signed count of units. -/
def units (x : Binary64) : Int :=
  if x.negative then -(x.magnitude : Int) else x.magnitude

/-- Numeric equality: the two zeros are equal. -/
def equals (x y : Binary64) : Bool := x.units == y.units

def less (x y : Binary64) : Bool := x.units < y.units

def atMost (x y : Binary64) : Bool := x.units ≤ y.units

/-- The binary64 number nearest to `num / den` units, if it is finite. -/
def ofUnits? (negative : Bool) (num den : Nat) : Option Binary64 :=
  if h : roundMagnitude num den < magnitudeLimit then
    some ⟨negative, roundMagnitude num den, h, roundMagnitude_eq_shiftLeft num den⟩
  else none

theorem pred_shiftLeft_lt {m : Nat} (hm : 0 < m) (k : Nat) : (m - 1) <<< k < m <<< k := by
  rw [Nat.shiftLeft_eq, Nat.shiftLeft_eq]
  exact Nat.mul_lt_mul_of_pos_right (Nat.sub_lt hm Nat.one_pos) (Nat.two_pow_pos k)

theorem largest_representable : Representable ((significandLimit - 1) <<< topExponent) := by
  refine ⟨?_, _, _, by decide, rfl⟩
  unfold magnitudeLimit
  exact pred_shiftLeft_lt (by decide) _

/-- The largest finite number of either sign. -/
def largest (negative : Bool) : Binary64 :=
  ⟨negative, (significandLimit - 1) <<< topExponent, largest_representable⟩

theorem representable_whole {n : Nat} (h : n ≤ significandLimit) :
    Representable (n <<< unitExponent) := by
  refine ⟨?_, n, unitExponent, h, rfl⟩
  unfold magnitudeLimit
  rw [Nat.shiftLeft_eq, Nat.shiftLeft_eq]
  refine Nat.lt_of_le_of_lt (Nat.mul_le_mul_right _ h) ?_
  exact Nat.mul_lt_mul_of_pos_left (Nat.pow_lt_pow_right (by decide) (by decide)) (by decide)

/-- The binary64 number nearest to an integer; integers of up to 53 bits are
    exact. Integers beyond the largest finite number stop there. -/
def ofInt (i : Int) : Binary64 :=
  if h : i.natAbs ≤ significandLimit then
    ⟨i < 0, i.natAbs <<< unitExponent, representable_whole h⟩
  else (ofUnits? (i < 0) (i.natAbs * unitsPerOne) 1).getD (largest (i < 0))

/-! ## Whole numbers -/

/-- Whether there is no fractional part. -/
def isWhole (x : Binary64) : Bool := x.magnitude % unitsPerOne == 0

/-- The integer part, rounded toward zero. -/
def toInt (x : Binary64) : Int :=
  let whole := x.magnitude / unitsPerOne
  if x.negative then -(whole : Int) else whole

theorem unitsPerOne_mul (n : Nat) : n * unitsPerOne = n <<< unitExponent := by
  unfold unitsPerOne
  rw [Nat.one_shiftLeft, Nat.shiftLeft_eq]

theorem representable_truncated {n : Nat} (h : Representable n) :
    Representable (n / unitsPerOne * unitsPerOne) := by
  obtain ⟨hlt, m, k, hm, rfl⟩ := h
  refine ⟨Nat.lt_of_le_of_lt (Nat.div_mul_le_self _ _) hlt, ?_⟩
  by_cases hk : unitExponent ≤ k
  · refine ⟨m, k, hm, Nat.div_mul_cancel ?_⟩
    unfold unitsPerOne
    rw [Nat.one_shiftLeft, Nat.shiftLeft_eq]
    exact Nat.dvd_mul_left_of_dvd (Nat.pow_dvd_pow 2 hk) m
  · refine ⟨_, unitExponent, ?_, unitsPerOne_mul _⟩
    refine Nat.le_trans ?_ hm
    refine Nat.div_le_of_le_mul ?_
    unfold unitsPerOne
    rw [Nat.one_shiftLeft, Nat.shiftLeft_eq, Nat.mul_comm]
    exact Nat.mul_le_mul_right m (Nat.pow_le_pow_right (by decide) (by omega))

/-- The fractional part dropped; the sign stays, also that of a zero. -/
def truncate (x : Binary64) : Binary64 :=
  ⟨x.negative, x.magnitude / unitsPerOne * unitsPerOne, representable_truncated x.representable⟩

/-- The whole number next to a fractional one, away from zero. -/
def awayFromZero (x : Binary64) : Binary64 :=
  if x.isWhole then x
  else
    (ofUnits? x.negative ((x.magnitude / unitsPerOne + 1) * unitsPerOne) 1).getD
      (largest x.negative)

def floor (x : Binary64) : Binary64 := if x.negative then x.awayFromZero else x.truncate

def ceil (x : Binary64) : Binary64 := if x.negative then x.truncate else x.awayFromZero

/-- The sum with one half, rounded to binary64. -/
def addHalf (x : Binary64) : Binary64 :=
  let sum := x.units + (unitsPerOne / 2 : Nat)
  (ofUnits? (sum < 0) sum.natAbs 1).getD (largest (sum < 0))

/-- Rounding to the nearest whole number; a half goes up. -/
def roundHalfUp (x : Binary64) : Binary64 := x.addHalf.floor

/-! ## Decimal numerals -/

/-- The binary64 number nearest to `digits * 10 ^ exponent`, if it is finite.
    Powers that are certain to overflow or to vanish are not computed. -/
def ofDecimal? (negative : Bool) (digits : Nat) (exponent : Int) : Option Binary64 :=
  if digits = 0 then some ⟨negative, 0, representable_zero⟩
  else if 310 < exponent then none
  else if 0 ≤ exponent then
    ofUnits? negative (digits * Nat.pow 10 exponent.toNat * unitsPerOne) 1
  else
    let places := (-exponent).toNat
    if digits.log2 + 1077 < 3 * places then some ⟨negative, 0, representable_zero⟩
    else ofUnits? negative (digits * unitsPerOne) (Nat.pow 10 places)

end Binary64

end Conform
