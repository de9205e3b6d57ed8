/-
  Conform.Proofs.Schema.IntegerText

  Integers on their way through texts. A text schema casts an integer to its numeral, and
  a number schema casts the numeral back. Signed 64-bit words come back as they are; a
  larger integer comes back as the nearest float, which may be another number.
-/

import Conform.Proofs.Number.Numerals
import Conform.Proofs.Schema.Recasting

namespace Conform

namespace Workshop

variable {w : Workshop} {s text number : Schema} {m m' : Option Mark} {i : Int}

/-- A schema of texts or numbers without transforms and conditions casts a value as it
    coerces it, if that makes it one of its type. -/
theorem cast_coerce {v : Value} (hkind : s.kind = .string ∨ s.kind = .number)
    (hconditions : s.conditions = []) (htransforms : s.traits.transforms = [])
    (htype : s.isType (s.coerce v) = true) (options : CallOptions) :
    w.cast s (some v) options = .ok (some (s.coerce v)) := by
  have hlazy : ∀ pick, s.kind ≠ .lazy pick := by rcases hkind with h | h <;> simp [h]
  have hwhole : Whole s (s.coerce v) := by rcases hkind with h | h <;> constructor <;> simp [h]
  have hprepare : (some v).bind (prepare s) = some (s.coerce v) := by
    rw [Option.bind_some, prepare, htransforms, List.foldl_nil]
  rw [cast, resolve_self hlazy hconditions (some v) options]
  exact castNode_of_castParts hprepare (castParts_whole hwhole) fun _ => htype

/-- An integer that a document keeps exact is cast to its numeral by a text schema, and the
    numeral is cast to a number by a number schema. The number has exactly the value of
    the integer if and only if the integer is a signed 64-bit word or a multiple of 2^11.
    A signed word comes back as an integer, and what comes back of any other integer is at
    most 2^10 away. -/
theorem cast_number_cast_text (htext : w.build m (.plain .string) = .ok text)
    (hnumber : w.build m' (.plain .number) = .ok number) (hkept : Number.Kept i)
    (options options' : CallOptions) :
    w.cast text (some (.int i)) options = .ok (some (.str (toString i))) ∧
      ∃ n, w.cast number (some (.str (toString i))) options' = .ok (some (.num n)) ∧
      (n.IsExactly i ↔ i ≤ Number.greatestSigned ∨ 2048 ∣ i) ∧
      (i ≤ Number.greatestSigned → n = .int i) ∧
      ∃ j, n.IsExactly j ∧ (j - i).natAbs ≤ 1024 := by
  obtain rfl : Schema.fresh w.locale .string = text := Except.ok.inj htext
  obtain rfl : Schema.fresh w.locale .number = number := Except.ok.inj hnumber
  have hread : (Schema.fresh w.locale .number).coerce (.str (toString i)) =
      .num (if i ≤ Number.greatestSigned then .int i else .float (Binary64.ofInt i)) := by
    show Coerce.toNumber (.str (toString i)) = _
    rw [Coerce.toNumber, Number.numberOfText?_toString hkept]
  refine ⟨cast_coerce (Or.inl rfl) rfl rfl rfl options,
    if i ≤ Number.greatestSigned then .int i else .float (Binary64.ofInt i), ?_, ?_⟩
  · rw [← hread]
    exact cast_coerce (Or.inr rfl) rfl rfl (by rw [hread]; rfl) options'
  · by_cases hword : i ≤ Number.greatestSigned
    · rw [if_pos hword]
      exact ⟨iff_of_true rfl (Or.inl hword), fun _ => rfl, i, rfl, by simp⟩
    · have hlong : Number.greatestSigned < i := Int.not_le.mp hword
      rw [if_neg hword]
      refine ⟨?_, fun h => absurd h hword, Number.rounded i, Number.units_ofInt hkept, ?_⟩
      · rw [Number.float_isExactly_iff hkept, Number.rounded_eq_self_iff hkept hlong]
        exact (or_iff_right hword).symm
      · exact Number.rounded_near hkept

/-- The greatest integer that a document keeps exact comes back as another number. The
    greatest signed word comes back as it is, and the integer behind it as a float of its
    value. -/
theorem cast_number_cast_text_greatest :
    ∃ text number, initial.build none (.plain .string) = .ok text ∧
      initial.build none (.plain .number) = .ok number ∧
      initial.cast text (some (.int 18446744073709551615)) .none =
        .ok (some (.str "18446744073709551615")) ∧
      (∃ n, initial.cast number (some (.str "18446744073709551615")) .none =
        .ok (some (.num n)) ∧ ¬ n.IsExactly 18446744073709551615) ∧
      initial.cast number (some (.str "9223372036854775807")) .none =
        .ok (some (.int 9223372036854775807)) ∧
      ∃ n, initial.cast number (some (.str "9223372036854775808")) .none =
        .ok (some (.num n)) ∧ n.IsExactly 9223372036854775808 := by
  obtain ⟨text, number, htext, hnumber⟩ : ∃ text number,
      initial.build none (.plain .string) = .ok text ∧
        initial.build none (.plain .number) = .ok number := ⟨_, _, rfl, rfl⟩
  obtain ⟨hgreatest, n, hn, hvalue, -⟩ :=
    cast_number_cast_text htext hnumber (by decide : Number.Kept 18446744073709551615) .none .none
  obtain ⟨-, word, hword, -, hsame, -⟩ :=
    cast_number_cast_text htext hnumber (by decide : Number.Kept 9223372036854775807) .none .none
  obtain ⟨-, even, heven, hsameValue, -⟩ :=
    cast_number_cast_text htext hnumber (by decide : Number.Kept 9223372036854775808) .none .none
  refine ⟨text, number, htext, hnumber, hgreatest, ⟨n, hn, ?_⟩, ?_, even, heven,
    hsameValue.mpr (by decide)⟩
  · rw [hvalue]
    decide
  · rw [hsame (by decide)] at hword
    exact hword

end Workshop

end Conform
