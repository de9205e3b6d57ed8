/-
  Conform.Proofs.Number.Rounding

  What is left of an integer in binary64. An integer is rounded to 53 significant bits: it
  stays as it is up to 2^53, it moves by 1024 at most in 64 bits, and no two integers change
  places. Numbers that are compared through binary64 are compared as rounded integers, and
  so neighbours beyond 2^53 may be taken for one another.
-/

import Conform.Number.Basic
import Mathlib.Data.Nat.Log
import Mathlib.Tactic.Ring

namespace Conform

-- ============================================================================
-- Quotients
-- ============================================================================

section Quotients

variable {num other den : Nat}

theorem div_le_roundQuotient (num den : Nat) : num / den ≤ roundQuotient num den := by
  unfold roundQuotient
  dsimp only
  split_ifs <;> omega

/-- Rounding to the next integer keeps the order. -/
theorem roundQuotient_mono (h : num ≤ other) (den : Nat) :
    roundQuotient num den ≤ roundQuotient other den := by
  rcases (Nat.div_le_div_right (c := den) h).lt_or_eq with hlt | heq
  · calc roundQuotient num den
      _ ≤ num / den + 1 := roundQuotient_le num den
      _ ≤ other / den := hlt
      _ ≤ roundQuotient other den := div_le_roundQuotient other den
  · have hrest : num % den ≤ other % den := by
      have hnum := Nat.div_add_mod num den
      have hother := Nat.div_add_mod other den
      rw [heq] at hnum
      omega
    unfold roundQuotient
    dsimp only
    rw [heq]
    split_ifs <;> omega

/-- Rounding to the next integer moves by one half at most. -/
theorem roundQuotient_near (num : Nat) (hden : 0 < den) :
    2 * (roundQuotient num den * den) ≤ 2 * num + den ∧
      2 * num ≤ 2 * (roundQuotient num den * den) + den := by
  have hdivision := Nat.div_add_mod num den
  have hrest := Nat.mod_lt num hden
  have hnext : (num / den + 1) * den = den * (num / den) + den := by ring
  have hhere : num / den * den = den * (num / den) := Nat.mul_comm _ _
  unfold roundQuotient
  dsimp only
  split_ifs <;> constructor <;> simp only [hnext, hhere] <;> omega

theorem roundQuotient_mul_right {c : Nat} (hc : 0 < c) (num den : Nat) :
    roundQuotient (num * c) (den * c) = roundQuotient num den := by
  have hdiv : num * c / (den * c) = num / den := Nat.mul_div_mul_right num den hc
  have hmod : num * c % (den * c) = num % den * c := Nat.mul_mod_mul_right c num den
  have hbelow : 2 * (num % den * c) < den * c ↔ 2 * (num % den) < den := by
    rw [← Nat.mul_assoc]
    exact Nat.mul_lt_mul_right hc
  have habove : den * c < 2 * (num % den * c) ↔ den < 2 * (num % den) := by
    rw [← Nat.mul_assoc]
    exact Nat.mul_lt_mul_right hc
  unfold roundQuotient
  simp only [hdiv, hmod, hbelow, habove]

theorem roundQuotient_one (num : Nat) : roundQuotient num 1 = num := by
  simp [roundQuotient, Nat.mod_one]

end Quotients

-- ============================================================================
-- Magnitudes
-- ============================================================================

/-- A magnitude rounded to 53 significant bits. -/
def keepBits (n : Nat) : Nat := roundMagnitude n 1

theorem keepBits_eq (n : Nat) :
    keepBits n = roundQuotient n (2 ^ excessBits n) * 2 ^ excessBits n := by
  rw [keepBits, roundMagnitude, Nat.div_one, Nat.shiftLeft_eq, Nat.one_shiftLeft]

variable {m n : Nat}

/-- Magnitudes of up to 53 bits are exact, and so is the next one. -/
theorem keepBits_of_le (h : n ≤ significandLimit) : keepBits n = n := by
  rcases h.lt_or_eq with hlt | rfl
  · have hexcess : excessBits n = 0 := by
      rcases Nat.eq_zero_or_pos n with rfl | hpos
      · rfl
      · have hlog : n.log2 < 53 := (Nat.log2_lt hpos.ne').mpr hlt
        unfold excessBits
        omega
    rw [keepBits_eq, hexcess, Nat.pow_zero, roundQuotient_one, Nat.mul_one]
  · decide

theorem ne_zero_of_long (h : significandLimit ≤ n) : n ≠ 0 :=
  Nat.pos_iff_ne_zero.mp (Nat.lt_of_lt_of_le (by decide : 0 < significandLimit) h)

theorem le_log2_of_long (h : significandLimit ≤ n) : 53 ≤ n.log2 :=
  (Nat.le_log2 (ne_zero_of_long h)).mpr h

/-- A long magnitude gives up what is behind its first 53 bits. -/
theorem excessBits_add (h : significandLimit ≤ n) : 52 + excessBits n = n.log2 := by
  have hlog := le_log2_of_long h
  unfold excessBits
  omega

theorem two_pow_le_keepBits (h : significandLimit ≤ n) : 2 ^ n.log2 ≤ keepBits n := by
  have hsplit : 2 ^ n.log2 = 2 ^ 52 * 2 ^ excessBits n := by rw [← Nat.pow_add, excessBits_add h]
  have hquotient : 2 ^ 52 ≤ n / 2 ^ excessBits n := by
    rw [Nat.le_div_iff_mul_le (Nat.two_pow_pos _), ← hsplit]
    exact Nat.log2_self_le (ne_zero_of_long h)
  rw [keepBits_eq, hsplit]
  exact Nat.mul_le_mul_right _ (hquotient.trans (div_le_roundQuotient _ _))

theorem keepBits_le_two_pow (h : significandLimit ≤ n) : keepBits n ≤ 2 ^ (n.log2 + 1) := by
  have hlt : n / 2 ^ excessBits n < significandLimit := by
    rw [← Nat.one_shiftLeft]
    exact div_excess_lt n
  have hquotient : roundQuotient n (2 ^ excessBits n) ≤ 2 ^ 53 := (roundQuotient_le _ _).trans hlt
  rw [keepBits_eq, ← excessBits_add h, Nat.add_right_comm, Nat.pow_add]
  exact Nat.mul_le_mul_right _ hquotient

/-- A long magnitude stays a long one. -/
theorem le_keepBits (h : significandLimit ≤ n) : significandLimit ≤ keepBits n :=
  calc significandLimit
    _ = 2 ^ 53 := by decide
    _ ≤ 2 ^ n.log2 := Nat.pow_le_pow_right (by decide) (le_log2_of_long h)
    _ ≤ keepBits n := two_pow_le_keepBits h

/-- Rounding keeps the order of magnitudes. -/
theorem keepBits_mono (h : m ≤ n) : keepBits m ≤ keepBits n := by
  rcases Nat.le_total n significandLimit with hn | hn
  · rwa [keepBits_of_le hn, keepBits_of_le (h.trans hn)]
  rcases Nat.le_total m significandLimit with hm | hm
  · rw [keepBits_of_le hm]
    exact hm.trans (le_keepBits hn)
  have hlog : m.log2 ≤ n.log2 :=
    (Nat.le_log2 (ne_zero_of_long hn)).mpr ((Nat.log2_self_le (ne_zero_of_long hm)).trans h)
  -- of one length they give up the same bits; a longer one is above what the shorter rounds to
  rcases hlog.lt_or_eq with hlt | heq
  · calc keepBits m
      _ ≤ 2 ^ (m.log2 + 1) := keepBits_le_two_pow hm
      _ ≤ 2 ^ n.log2 := Nat.pow_le_pow_right (by decide) hlt
      _ ≤ keepBits n := two_pow_le_keepBits hn
  · rw [keepBits_eq, keepBits_eq, excessBits, excessBits, heq]
    exact Nat.mul_le_mul_right _ (roundQuotient_mono h _)

/-- In 64 bits, rounding moves by half of 2^11 at most. -/
theorem keepBits_near (h : n < 2 ^ 64) : keepBits n ≤ n + 1024 ∧ n ≤ keepBits n + 1024 := by
  have hpow : 2 ^ excessBits n ≤ 2 ^ 11 := by
    refine Nat.pow_le_pow_right (by decide) ?_
    rcases Nat.eq_zero_or_pos n with rfl | hpos
    · decide
    · have hlog : n.log2 < 64 := (Nat.log2_lt hpos.ne').mpr h
      unfold excessBits
      omega
  obtain ⟨habove, hbelow⟩ := roundQuotient_near n (Nat.two_pow_pos (excessBits n))
  rw [← keepBits_eq] at habove hbelow
  omega

/-- A long magnitude is rounded alike in any unit. -/
theorem keepBits_mul_two_pow (h : significandLimit ≤ n) (e : Nat) :
    keepBits (n * 2 ^ e) = keepBits n * 2 ^ e := by
  have hne : n * 2 ^ e ≠ 0 := Nat.mul_ne_zero (ne_zero_of_long h) (Nat.two_pow_pos e).ne'
  have hlog : (n * 2 ^ e).log2 = n.log2 + e := by
    rw [Nat.log2_eq_iff hne, Nat.add_right_comm, Nat.pow_add, Nat.pow_add]
    exact ⟨Nat.mul_le_mul_right _ (Nat.log2_self_le (ne_zero_of_long h)),
      Nat.mul_lt_mul_of_pos_right Nat.lt_log2_self (Nat.two_pow_pos e)⟩
  have hexcess : excessBits (n * 2 ^ e) = excessBits n + e := by
    have hlong := le_log2_of_long h
    unfold excessBits
    omega
  rw [keepBits_eq, keepBits_eq, hexcess, Nat.pow_add, roundQuotient_mul_right (Nat.two_pow_pos e),
    Nat.mul_assoc]

-- ============================================================================
-- Integers
-- ============================================================================

namespace Number

/-- Whether a document keeps an integer exact. -/
def Kept (i : Int) : Prop := leastInt ≤ i ∧ i ≤ greatestInt

instance (i : Int) : Decidable (Kept i) := inferInstanceAs (Decidable (_ ∧ _))

/-- Whether an integer has 53 bits at most. -/
def Short (i : Int) : Prop := i.natAbs < significandLimit

instance (i : Int) : Decidable (Short i) := inferInstanceAs (Decidable (_ < _))

/-- An integer rounded to 53 significant bits. -/
def rounded (i : Int) : Int := if i < 0 then -(keepBits i.natAbs : Int) else keepBits i.natAbs

variable {i j : Int}

theorem Kept.natAbs_lt (h : Kept i) : i.natAbs < 2 ^ 64 := by
  obtain ⟨hleast, hgreatest⟩ := h
  unfold leastInt at hleast
  unfold greatestInt at hgreatest
  omega

/-- Integers of up to 53 bits stay as they are. -/
theorem rounded_of_le (h : i.natAbs ≤ significandLimit) : rounded i = i := by
  rw [rounded, keepBits_of_le h]
  split <;> omega

/-- A short integer is told from all others. -/
theorem Short.eq_of_rounded_eq (h : Short i) (hround : rounded i = rounded j) : i = j := by
  rw [rounded_of_le h.le] at hround
  unfold Short at h
  rcases Nat.le_total j.natAbs significandLimit with hj | hj
  · rw [hround, rounded_of_le hj]
  · have hlong := le_keepBits hj
    unfold rounded at hround
    split at hround <;> omega

/-- Rounding keeps the order of integers. -/
theorem rounded_mono (h : i ≤ j) : rounded i ≤ rounded j := by
  unfold rounded
  split
  · split
    · have hle : keepBits j.natAbs ≤ keepBits i.natAbs := keepBits_mono (by omega)
      omega
    · omega
  · rw [if_neg (by omega)]
    have hle : keepBits i.natAbs ≤ keepBits j.natAbs := keepBits_mono (by omega)
    omega

/-- Of the integers that a document keeps exact, different ones that are rounded alike have
    more than 53 bits, and are 2^11 apart at most. -/
theorem eq_or_near_of_rounded_eq (hi : Kept i) (hj : Kept j) (h : rounded i = rounded j) :
    i = j ∨ ¬ Short i ∧ ¬ Short j ∧ (i - j).natAbs ≤ 2048 := by
  by_cases hsame : i = j
  · exact Or.inl hsame
  have hleft := keepBits_near hi.natAbs_lt
  have hright := keepBits_near hj.natAbs_lt
  refine Or.inr ⟨fun hshort => hsame (hshort.eq_of_rounded_eq h),
    fun hshort => hsame (hshort.eq_of_rounded_eq h.symm).symm, ?_⟩
  unfold rounded at h
  split at h <;> split at h <;> omega

theorem unitsPerOne_eq : unitsPerOne = 2 ^ unitExponent := Nat.one_shiftLeft unitExponent

/-- No integer that a document keeps exact is too large to be finite. -/
theorem keepBits_lt_magnitudeLimit {n : Nat} (h : n < 2 ^ 64) :
    keepBits n * unitsPerOne < magnitudeLimit := by
  have hkept : keepBits n < 2 ^ 65 := by
    have hnear := keepBits_near h
    omega
  have hlimit : magnitudeLimit = 2 ^ (53 + topExponent) := by
    have hlong : significandLimit = 2 ^ 53 := by decide
    rw [magnitudeLimit, Nat.shiftLeft_eq, Nat.pow_add, hlong]
  calc keepBits n * unitsPerOne
    _ < 2 ^ 65 * unitsPerOne := Nat.mul_lt_mul_of_pos_right hkept (by
        rw [unitsPerOne_eq]
        exact Nat.two_pow_pos _)
    _ = 2 ^ (65 + unitExponent) := by rw [unitsPerOne_eq, Nat.pow_add]
    _ ≤ 2 ^ (53 + topExponent) := Nat.pow_le_pow_right (by decide) (by decide)
    _ = magnitudeLimit := hlimit.symm

theorem magnitude_ofInt (h : Kept i) :
    (Binary64.ofInt i).negative = decide (i < 0) ∧
      (Binary64.ofInt i).magnitude = keepBits i.natAbs * unitsPerOne := by
  rw [Binary64.ofInt]
  split
  · next hshort =>
      refine ⟨rfl, ?_⟩
      rw [keepBits_of_le hshort, Binary64.unitsPerOne_mul]
  · next hlong =>
      have hround : roundMagnitude (i.natAbs * unitsPerOne) 1 =
          keepBits i.natAbs * unitsPerOne := by
        rw [unitsPerOne_eq]
        exact keepBits_mul_two_pow (Nat.le_of_not_le hlong) unitExponent
      have hfinite : roundMagnitude (i.natAbs * unitsPerOne) 1 < magnitudeLimit := by
        rw [hround]
        exact keepBits_lt_magnitudeLimit h.natAbs_lt
      rw [Binary64.ofUnits?, dif_pos hfinite]
      exact ⟨rfl, hround⟩

/-- An integer as binary64 is the rounded integer. -/
theorem units_ofInt (h : Kept i) : (Binary64.ofInt i).units = rounded i * unitsPerOne := by
  obtain ⟨hsign, hmagnitude⟩ := magnitude_ofInt h
  rw [Binary64.units, hsign, hmagnitude, rounded]
  by_cases hneg : i < 0
  · rw [if_pos (decide_eq_true hneg), if_pos hneg, Nat.cast_mul, Int.neg_mul]
  · rw [if_neg (by simpa using hneg), if_neg hneg, Nat.cast_mul]

theorem unitsPerOne_pos : (0 : Int) < unitsPerOne := by
  rw [unitsPerOne_eq]
  exact Int.natCast_pos.mpr (Nat.two_pow_pos _)

/-- Integers are equal by numeric value if they are rounded alike. -/
theorem int_equals_iff (hi : Kept i) (hj : Kept j) :
    (int i).equals (int j) = true ↔ rounded i = rounded j := by
  rw [equals, Binary64.equals, beq_iff_eq, toBinary64, toBinary64, units_ofInt hi, units_ofInt hj]
  exact Int.mul_eq_mul_right_iff unitsPerOne_pos.ne'

theorem ofInt_less_iff (hi : Kept i) (hj : Kept j) :
    (Binary64.ofInt i).less (Binary64.ofInt j) = true ↔ rounded i < rounded j := by
  rw [Binary64.less, decide_eq_true_iff, units_ofInt hi, units_ofInt hj]
  exact Int.mul_lt_mul_right unitsPerOne_pos

theorem ofInt_atMost_iff (hi : Kept i) (hj : Kept j) :
    (Binary64.ofInt i).atMost (Binary64.ofInt j) = true ↔ rounded i ≤ rounded j := by
  rw [Binary64.atMost, decide_eq_true_iff, units_ofInt hi, units_ofInt hj]
  exact Int.mul_le_mul_right unitsPerOne_pos

end Number

end Conform
