/-
  Conform.Proofs.Text.Ascii

  The blanks of ASCII and the characters of its names, among the blanks and the characters
  of words of all texts. There are few enough of them to look each one up.
-/

import Conform.Text.Blank
import Conform.Text.WordChars

namespace Conform

/-- The blanks of ASCII: the space, and the tab up to the carriage return. -/
def isAsciiBlank (c : Char) : Bool := c.toNat == 0x20 || 0x09 ≤ c.toNat && c.toNat ≤ 0x0D

/-- A letter or a digit of ASCII, or an underscore. -/
def isNameChar (c : Char) : Bool := c.isAlphanum || c == '_'

/-- What holds of every character of ASCII can be looked up one by one. -/
theorem forall_ascii {p : Char → Prop} (h : ∀ code < 0x80, p (Char.ofNat code)) {c : Char}
    (hc : c.toNat < 0x80) : p c := by
  have hcode := h c.toNat hc
  rwa [Char.ofNat_toNat] at hcode

theorem toNat_lt_of_isAsciiBlank {c : Char} (h : isAsciiBlank c = true) : c.toNat < 0x80 := by
  simp only [isAsciiBlank, Bool.or_eq_true, beq_iff_eq, Bool.and_eq_true, decide_eq_true_eq] at h
  omega

theorem toNat_lt_of_isNameChar {c : Char} (h : isNameChar c = true) : c.toNat < 0x80 := by
  have hbelow (last : Char) (hlast : last.toNat < 0x80) (hc : c.val ≤ last.val) :
      c.toNat < 0x80 := Nat.lt_of_le_of_lt (UInt32.le_iff_toNat_le.mp hc) hlast
  rcases (Bool.or_eq_true _ _).mp h with hchar | hunderscore
  · rcases (Bool.or_eq_true _ _).mp hchar with hletter | hdigit
    · rcases (Bool.or_eq_true _ _).mp hletter with hupper | hlower
      · exact hbelow 'Z' (by decide) (of_decide_eq_true hupper).2
      · exact hbelow 'z' (by decide) (of_decide_eq_true ((Bool.and_eq_true _ _).mp hlower).2)
    · exact hbelow '9' (by decide) (of_decide_eq_true ((Bool.and_eq_true _ _).mp hdigit).2)
  · rw [eq_of_beq hunderscore]
    decide

/-- An ASCII blank is skipped around a name, and is in none. -/
theorem blank_of_isAsciiBlank {c : Char} (h : isAsciiBlank c = true) :
    isBlank c = true ∧ isWordChar c = false :=
  forall_ascii (p := fun c => isAsciiBlank c = true → isBlank c = true ∧ isWordChar c = false)
    (by decide) (toNat_lt_of_isAsciiBlank h) h

/-- A character of an ASCII name is one of a word, and no blank. -/
theorem word_of_isNameChar {c : Char} (h : isNameChar c = true) :
    isWordChar c = true ∧ isBlank c = false :=
  forall_ascii (p := fun c => isNameChar c = true → isWordChar c = true ∧ isBlank c = false)
    (by decide) (toNat_lt_of_isNameChar h) h

end Conform
