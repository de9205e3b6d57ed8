/-
  Conform.Proofs.Number.Numerals

  What is read of the numeral of an integer. Signed 64-bit words are read as they are
  written. A larger integer is read as the nearest number of 53 bits, and that is the
  integer itself exactly if it is a multiple of 2^11.
-/

import Conform.Proofs.Number.Rounding
import Conform.Proofs.Path.Text
import Conform.Schema.Coerce
import Mathlib.Data.List.TakeWhile

namespace Conform

-- ============================================================================
-- Numerals
-- ============================================================================

/-- The numeral of a natural number has no sign. -/
theorem takeSign_toString (n : Nat) :
    Numeral.takeSign (toString n).toList = (false, (toString n).toList) := by
  unfold Numeral.takeSign
  split
  · next rest hsign =>
      exact absurd (isDigit_of_mem_toString (hsign ▸ List.mem_cons_self)) (by decide)
  · next rest hsign =>
      exact absurd (isDigit_of_mem_toString (hsign ▸ List.mem_cons_self)) (by decide)
  · rfl

/-- An integer is read back from its numeral, if it is a signed 64-bit word. -/
theorem signedInt?_toString {i : Int} (h : Number.leastInt ≤ i) :
    signedInt? (toString i).toList = if i ≤ Number.greatestSigned then some i else none := by
  cases i with
  | ofNat n =>
      have htext : (toString (Int.ofNat n)).toList = (toString n).toList := rfl
      have hleast : Number.leastInt ≤ (n : Int) := h
      rw [htext, signedInt?, takeSign_toString]
      simp only [digitsValue?_toString, hleast, true_and, Bool.false_eq_true, if_false]
      rfl
  | negSucc n =>
      have htext : (toString (Int.negSucc n)).toList = '-' :: (toString (n + 1)).toList := by
        have happend : toString (Int.negSucc n) = "-" ++ toString (n + 1) := rfl
        rw [happend, String.toList_append]
        rfl
      have hvalue : -((n + 1 : Nat) : Int) = Int.negSucc n := rfl
      have hgreatest : Int.negSucc n ≤ Number.greatestSigned :=
        (Int.negSucc_lt_zero n).le.trans (by decide)
      rw [htext, signedInt?, Numeral.takeSign]
      simp only [digitsValue?_toString, if_true, hvalue, h, hgreatest, and_self]

theorem isBlank_of_mem_toString {i : Int} {c : Char} (h : c ∈ (toString i).toList) :
    isBlank c = false := by
  cases i with
  | ofNat n =>
      have hmem : c ∈ (toString n).toList := h
      exact isBlank_of_isDigit (isDigit_of_mem_toString hmem)
  | negSucc n =>
      have happend : toString (Int.negSucc n) = "-" ++ toString (n + 1) := rfl
      rw [happend, String.toList_append, List.mem_append] at h
      rcases h with hsign | hdigit
      · rw [List.mem_singleton.mp hsign]
        decide
      · exact isBlank_of_isDigit (isDigit_of_mem_toString hdigit)

namespace Numeral

theorem takeDigits_toString (n : Nat) :
    takeDigits (toString n).toList = ((toString n).toList, []) := by
  have hdigits : ∀ c ∈ (toString n).toList, c.isDigit = true := fun _ => isDigit_of_mem_toString
  rw [takeDigits, List.takeWhile_eq_self_iff.mpr hdigits, List.dropWhile_eq_nil_iff.mpr hdigits]

/-- The numeral of a natural number has nothing but a whole part. -/
theorem ofText?_toString (n : Nat) :
    ofText? (toString n).toList = some ⟨false, (toString n).toList, [], 0⟩ := by
  have hsome : (toString n).toList.isEmpty = false :=
    List.isEmpty_eq_false_iff.mpr (toList_toString_ne_nil n)
  rw [ofText?, takeSign_toString]
  simp only [takeDigits_toString, hsome, Bool.false_and, Bool.false_eq_true, if_false, takeExponent]

variable {n : Nat}

/-- A numeral of more than 53 bits is read as the nearest number of 53 bits. -/
theorem toBinary64?_toString (hlong : significandLimit < n) :
    ((ofText? (toString n).toList).bind toBinary64?) =
      Binary64.ofUnits? false (n * unitsPerOne) 1 := by
  have hzero : n ≠ 0 := ne_zero_of_long hlong.le
  rw [ofText?_toString, Option.bind_some, toBinary64?, List.append_nil, toList_toString,
    digitsValue_toDigits, Binary64.ofDecimal?, if_neg hzero]
  simp

end Numeral

-- ============================================================================
-- Long integers
-- ============================================================================

/-- A magnitude is left as it is exactly if it has zeros for the bits that it gives up. -/
theorem keepBits_eq_self_iff (n : Nat) : keepBits n = n ↔ 2 ^ excessBits n ∣ n := by
  rw [keepBits_eq]
  constructor
  · exact Dvd.intro_left _
  · rintro ⟨q, hq⟩
    have hquotient : roundQuotient n (2 ^ excessBits n) = q := by
      have hround := roundQuotient_mul_right (Nat.two_pow_pos (excessBits n)) q 1
      rwa [Nat.one_mul, Nat.mul_comm q, ← hq, roundQuotient_one] at hround
    rw [hquotient, Nat.mul_comm, ← hq]

namespace Number

variable {i : Int}

/-- Of the integers that are no signed words, those keep their value that are multiples
    of 2^11. -/
theorem rounded_eq_self_iff (hkept : Kept i) (hlong : greatestSigned < i) :
    rounded i = i ↔ 2048 ∣ i := by
  obtain ⟨n, rfl⟩ : ∃ n : Nat, i = n := ⟨i.toNat, by unfold greatestSigned at hlong; omega⟩
  have hn : 2 ^ 63 ≤ n ∧ n < 2 ^ 64 := by
    have hlt := hkept.natAbs_lt
    unfold greatestSigned at hlong
    omega
  have hlog : n.log2 = 63 := (Nat.log2_eq_iff (by omega)).mpr hn
  have hexcess : excessBits n = 11 := by rw [excessBits, hlog]
  have hbits := keepBits_eq_self_iff n
  rw [hexcess] at hbits
  rw [rounded, if_neg (by omega), Int.natAbs_natCast, Int.natCast_inj, hbits]
  exact Int.natCast_dvd_natCast.symm

/-- Rounding moves an integer that a document keeps exact by 2^10 at most. -/
theorem rounded_near (hkept : Kept i) : (rounded i - i).natAbs ≤ 1024 := by
  have hnear := keepBits_near hkept.natAbs_lt
  unfold rounded
  split <;> omega

theorem ofUnits?_eq_ofInt (hkept : Kept i) (hlong : ¬ i.natAbs ≤ significandLimit) :
    Binary64.ofUnits? (i < 0) (i.natAbs * unitsPerOne) 1 = some (Binary64.ofInt i) := by
  have hround : roundMagnitude (i.natAbs * unitsPerOne) 1 = keepBits i.natAbs * unitsPerOne := by
    rw [unitsPerOne_eq]
    exact keepBits_mul_two_pow (Nat.le_of_not_le hlong) unitExponent
  have hfinite : roundMagnitude (i.natAbs * unitsPerOne) 1 < magnitudeLimit := by
    rw [hround]
    exact keepBits_lt_magnitudeLimit hkept.natAbs_lt
  rw [Binary64.ofInt, dif_neg hlong, Binary64.ofUnits?, dif_pos hfinite]
  rfl

/-- A computed number that is a long integer stays a float. -/
theorem ofComputed_ofInt (hkept : Kept i) (hlong : significandLimit ≤ i.natAbs) :
    ofComputed (Binary64.ofInt i) = float (Binary64.ofInt i) := by
  have hlimit : wholeLimit ≤ significandLimit := by decide
  have hlarge : ¬ (Binary64.ofInt i).magnitude < wholeLimit * unitsPerOne := by
    rw [(magnitude_ofInt hkept).2, Nat.not_lt]
    exact Nat.mul_le_mul_right _ (hlimit.trans (le_keepBits hlong))
  rw [ofComputed, if_neg (by simp [hlarge])]

/-- Whether a number has exactly the value of an integer. -/
def IsExactly (m : Number) (i : Int) : Prop :=
  match m with
  | int j => j = i
  | float x => x.units = i * unitsPerOne

theorem float_isExactly_iff (hkept : Kept i) :
    (float (Binary64.ofInt i)).IsExactly i ↔ rounded i = i := by
  rw [IsExactly, units_ofInt hkept]
  exact Int.mul_eq_mul_right_iff unitsPerOne_pos.ne'

/-- The number that is read of the numeral of an integer: the integer itself if it is a
    signed word, and the nearest float if it is larger. -/
theorem numberOfText?_toString (hkept : Kept i) :
    Coerce.numberOfText? (toString i) =
      some (if i ≤ greatestSigned then int i else float (Binary64.ofInt i)) := by
  have hblank : (toString i).toList.filter (fun c => !isBlank c) = (toString i).toList :=
    List.filter_eq_self.mpr fun c hc => by rw [isBlank_of_mem_toString hc]; rfl
  rw [Coerce.numberOfText?, hblank, signedInt?_toString hkept.1]
  by_cases hword : i ≤ greatestSigned
  · rw [if_pos hword, if_pos hword]
  · rw [if_neg hword, if_neg hword]
    obtain ⟨n, rfl⟩ : ∃ n : Nat, i = n := ⟨i.toNat, by unfold greatestSigned at hword; omega⟩
    have hlong : significandLimit < n := by
      unfold greatestSigned at hword
      unfold significandLimit
      omega
    have htext : (toString (n : Int)).toList = (toString n).toList := rfl
    have hread := Numeral.toBinary64?_toString hlong
    have hnearest := ofUnits?_eq_ofInt hkept (by omega)
    rw [Int.natAbs_natCast, decide_eq_false (by omega)] at hnearest
    dsimp only
    rw [htext, hread, hnearest, Option.map_some, ofComputed_ofInt hkept (by omega)]

end Number
end Conform
