/-
  Conform.Proofs.Path.Spelling

  Texts that are their own first key. No step is longer than what it is read of, and a
  point or an open bracket belongs to no step. So a text is the key of its first step
  exactly if it is read as one part, and the part is a key that is spelled like it.
-/

import Conform.Proofs.Path.Text
import Mathlib.Data.List.Induction
import Mathlib.Data.Nat.Digits.Defs

namespace Conform

-- ============================================================================
-- Lengths
-- ============================================================================

theorem digitsValue_concat (cs : List Char) (c : Char) :
    digitsValue (cs ++ [c]) = 10 * digitsValue cs + (c.toNat - 0x30) := by
  rw [digitsValue, List.foldl_append, Nat.mul_comm]
  rfl

theorem digitsValue_lt {cs : List Char} (h : cs.all Char.isDigit = true) :
    digitsValue cs < 10 ^ cs.length := by
  induction cs using List.reverseRecOn with
  | nil => decide
  | append_singleton cs c ih =>
      rw [List.all_append, Bool.and_eq_true, List.all_cons, Bool.and_eq_true] at h
      obtain ⟨hcs, hc, -⟩ := h
      have hcode : 0x30 ≤ c.toNat ∧ c.toNat ≤ 0x39 := Char.isDigit_iff_toNat.mp hc
      have hfront := ih hcs
      rw [digitsValue_concat, List.length_append, List.length_singleton, Nat.pow_succ]
      omega

/-- A number takes no more digits than a numeral that has its value. -/
theorem length_toString_of_digitsValue? {cs : List Char} {n : Nat} (h : digitsValue? cs = some n) :
    (toString n).length ≤ cs.length := by
  rw [digitsValue?] at h
  split at h
  · exact absurd h (by simp)
  · next hdigits =>
      obtain ⟨hsome, hall⟩ : cs.isEmpty = false ∧ cs.all Char.isDigit = true := by
        simpa using hdigits
      obtain rfl := Option.some.inj h
      have hpos : 0 < cs.length := List.length_pos_iff.mpr (List.isEmpty_eq_false_iff.mp hsome)
      exact Nat.repr_length _ _ hpos (digitsValue_lt hall)

/-- The character of a digit is that of its value. -/
theorem digitChar_sub {c : Char} (h : c.isDigit = true) : (c.toNat - 0x30).digitChar = c := by
  have hcode : 0x30 ≤ c.toNat ∧ c.toNat ≤ 0x39 := Char.isDigit_iff_toNat.mp h
  refine Char.toNat_inj.mp ?_
  rw [Nat.toNat_digitChar_of_lt_ten (by omega)]
  omega

/-- A numeral without zeros in front is the numeral of its value. -/
theorem toDigits_digitsValue {cs : List Char} (hdigits : ∀ c ∈ cs, c.isDigit = true)
    (hsome : cs ≠ []) (hzero : cs.head? ≠ some '0') :
    0 < digitsValue cs ∧ Nat.toDigits 10 (digitsValue cs) = cs := by
  induction cs using List.reverseRecOn with
  | nil => exact absurd rfl hsome
  | append_singleton cs c ih =>
      have hc : c.isDigit = true := hdigits c (by simp)
      have hcode : 0x30 ≤ c.toNat ∧ c.toNat ≤ 0x39 := Char.isDigit_iff_toNat.mp hc
      have hlast : Nat.toDigits 10 (c.toNat - 0x30) = [c] := by
        rw [Nat.toDigits_of_lt_base (by omega), digitChar_sub hc]
      rw [digitsValue_concat]
      cases cs with
      | nil =>
          have hcne : c ≠ '0' := by simpa using hzero
          have hpos : c.toNat ≠ 0x30 := fun heq => hcne (Char.toNat_inj.mp heq)
          refine ⟨by omega, ?_⟩
          rw [show 10 * digitsValue [] + (c.toNat - 0x30) = c.toNat - 0x30 from Nat.zero_add _,
            hlast, List.nil_append]
      | cons first rest =>
          obtain ⟨hpos, hfront⟩ := ih (fun d hd => hdigits d (List.mem_append_left _ hd))
            (by simp) (by simpa using hzero)
          refine ⟨by omega, ?_⟩
          rw [← Nat.toDigits_append_toDigits (by decide) hpos (by omega), hfront, hlast]

theorem trimChars_sublist (cs : List Char) : (trimChars cs).Sublist cs := by
  have h : ((cs.dropWhile isBlank).reverse.dropWhile isBlank).reverse.Sublist
      (cs.dropWhile isBlank).reverse.reverse := (List.dropWhile_sublist _).reverse
  rw [List.reverse_reverse] at h
  exact h.trans (List.dropWhile_sublist _)

namespace Path

variable {part cs reversed : List Char} {step : Segment} {source : String}

theorem length_bareSegment_le (part : List Char) :
    (bareSegment part).asKey.length ≤ part.length := by
  have hkey : (Segment.key (String.ofList part) false).asKey.length ≤ part.length := by
    rw [Segment.asKey, String.length_ofList]
  rw [bareSegment]
  split
  · next n hn =>
      split
      · exact length_toString_of_digitsValue? hn
      · exact hkey
  · exact hkey

theorem length_le_of_mem_bareStep (h : step ∈ bareStep part) : step.asKey.length ≤ part.length := by
  rw [bareStep] at h
  split at h
  · exact absurd h List.not_mem_nil
  · obtain rfl := List.mem_singleton.mp h
    exact (length_bareSegment_le _).trans (trimChars_sublist part).length_le

theorem length_unquoted_le (quote : Char) (body : List Char) :
    (unquoted quote body).length ≤ body.length := by
  rw [unquoted]
  split
  · rw [List.length_dropLast]
    omega
  · exact Nat.le_refl _

theorem length_le_of_mem_bracketStep (h : step ∈ bracketStep part) :
    step.asKey.length ≤ part.length := by
  rw [bracketStep] at h
  split at h
  · exact absurd h List.not_mem_nil
  · next c body htrim =>
      have hpart : (c :: body).length ≤ part.length := htrim ▸ (trimChars_sublist part).length_le
      split at h
      · obtain rfl := List.mem_singleton.mp h
        have hbody := length_unquoted_le c body
        rw [Segment.asKey, String.length_ofList]
        rw [List.length_cons] at hpart
        omega
      · obtain rfl := List.mem_singleton.mp h
        exact (length_bareSegment_le _).trans hpart

/-- How much of a part has been read. -/
def Reading.length : Reading → Nat
  | .bare reversed => reversed.length
  | .bracket reversed _ => reversed.length

@[simp] theorem Reading.length_bare (reversed : List Char) :
    (Reading.bare reversed).length = reversed.length := rfl

@[simp] theorem Reading.length_bracket (reversed : List Char) (quote : Option Char) :
    (Reading.bracket reversed quote).length = reversed.length := rfl

theorem length_le_of_mem_held (h : step ∈ bareStep reversed.reverse) :
    step.asKey.length ≤ reversed.length := by
  have hle := length_le_of_mem_bareStep h
  rwa [List.length_reverse] at hle

theorem length_le_of_mem_held_bracket (h : step ∈ bracketStep reversed.reverse) :
    step.asKey.length ≤ reversed.length := by
  have hle := length_le_of_mem_bracketStep h
  rwa [List.length_reverse] at hle

/-- A character between a part and the rest makes every step of both shorter than all. -/
theorem length_lt_of_mem_append {part rest : List Segment} {m n : Nat}
    (hpart : step ∈ part → step.asKey.length ≤ m) (hrest : step ∈ rest → step.asKey.length ≤ n)
    (h : step ∈ part ++ rest) : step.asKey.length < m + (n + 1) := by
  rcases List.mem_append.mp h with hmem | hmem
  · have hle := hpart hmem
    omega
  · have hle := hrest hmem
    omega

/-- No step is longer than what has been read of its part together with the rest. -/
theorem length_le_of_mem_stepsFrom {reading : Reading} (h : step ∈ stepsFrom reading cs) :
    step.asKey.length ≤ reading.length + cs.length := by
  fun_induction stepsFrom reading cs with
  | case1 reversed => exact length_le_of_mem_held h
  | case2 reversed quote => exact length_le_of_mem_held_bracket h
  | case3 reversed cs ih =>
      exact (length_lt_of_mem_append length_le_of_mem_held
        (fun hmem => by simpa using ih hmem) h).le
  | case4 reversed cs _ ih =>
      exact (length_lt_of_mem_append length_le_of_mem_held
        (fun hmem => by simpa using ih hmem) h).le
  | case5 reversed c cs _ _ ih =>
      have hle := ih h
      simp only [Reading.length_bare, List.length_cons] at hle ⊢
      omega
  | case6 reversed quote c cs _ ih =>
      exact (length_lt_of_mem_append length_le_of_mem_held_bracket
        (fun hmem => by simpa using ih hmem) h).le
  | case7 reversed quote c cs _ ih =>
      have hle := ih h
      simp only [Reading.length_bracket, List.length_cons] at hle ⊢
      omega

/-- Every step is shorter than a text with a point or an open bracket in it. -/
theorem length_lt_of_mem_stepsFrom (hbreak : '.' ∈ cs ∨ '[' ∈ cs)
    (h : step ∈ stepsFrom (.bare reversed) cs) :
    step.asKey.length < reversed.length + cs.length := by
  induction cs generalizing reversed with
  | nil => simp at hbreak
  | cons c cs ih =>
      rw [stepsFrom] at h
      have hnext {next : Reading} (hnew : next.length = 0) (hmem : step ∈ stepsFrom next cs) :
          step.asKey.length ≤ cs.length :=
        Nat.zero_add cs.length ▸ hnew ▸ length_le_of_mem_stepsFrom hmem
      split at h
      · exact length_lt_of_mem_append length_le_of_mem_held (hnext rfl) h
      · next hpoint =>
          split at h
          · exact length_lt_of_mem_append length_le_of_mem_held (hnext rfl) h
          · next hbracket =>
              have hrest : '.' ∈ cs ∨ '[' ∈ cs :=
                hbreak.imp (fun hmem => (List.mem_cons.mp hmem).resolve_left (Ne.symm hpoint))
                  (fun hmem => (List.mem_cons.mp hmem).resolve_left (Ne.symm hbracket))
              have hlt := ih hrest h
              rw [List.length_cons] at hlt ⊢
              omega

-- ============================================================================
-- First keys
-- ============================================================================

/-- Whether a text names the key that is spelled like it: it is read as one part, and the
    part is not a position that is written another way, as with zeros in front. -/
structure SpelledKey (key : String) : Prop extends Name key where
  asRead : (bareSegment key.toList).asKey = key

instance (key : String) : Decidable (SpelledKey key) :=
  decidable_of_iff (Name key ∧ (bareSegment key.toList).asKey = key)
    ⟨fun h => ⟨h.1, h.2⟩, fun h => ⟨h.toName, h.asRead⟩⟩

theorem SpelledKey.parse_eq (h : SpelledKey source) :
    parse source = [bareSegment source.toList] := (reads_name h.toName).parse

/-- A text without points and brackets is read as one part. -/
theorem parse_of_not_mem (hpoint : '.' ∉ source.toList) (hbracket : '[' ∉ source.toList) :
    parse source = bareStep source.toList := by
  have hread := stepsFrom_bare hpoint hbracket [] []
  rw [List.append_nil, List.append_nil] at hread
  rw [parse, hread, stepsFrom, List.reverse_reverse]

/-- A text is its own first key exactly if it names the key that is spelled like it. -/
theorem firstKey?_eq_self : firstKey? source = some source ↔ SpelledKey source := by
  constructor
  · intro h
    obtain ⟨step, hhead, hstep⟩ := Option.map_eq_some_iff.mp h
    have hmem : step ∈ parse source := List.mem_of_mem_head? hhead
    have hlength : step.asKey.length = source.toList.length := by
      rw [hstep, String.length_toList]
    have hbreak : ¬ ('.' ∈ source.toList ∨ '[' ∈ source.toList) := fun hbreak =>
      Nat.lt_irrefl _ (hlength ▸ Nat.zero_add _ ▸ length_lt_of_mem_stepsFrom hbreak hmem)
    obtain ⟨hpoint, hbracket⟩ := not_or.mp hbreak
    rw [parse_of_not_mem hpoint hbracket, bareStep] at hmem
    split at hmem
    · exact absurd hmem List.not_mem_nil
    · next hnonempty =>
        obtain rfl := List.mem_singleton.mp hmem
        -- nothing is trimmed, as the step would be shorter than the text
        have htrimmed : trimChars source.toList = source.toList :=
          (trimChars_sublist _).eq_of_length_le (hlength ▸ length_bareSegment_le _)
        exact ⟨⟨htrimmed ▸ hnonempty, hpoint, hbracket, htrimmed⟩, htrimmed ▸ hstep⟩
  · intro h
    rw [firstKey?, h.parse_eq]
    exact congrArg some h.asRead

-- ============================================================================
-- Zeros in front
-- ============================================================================

/-- Whether a text is the numeral of a position with zeros in front. -/
structure ZeroPadded (key : String) : Prop where
  zero : key.toList.head? = some '0'
  more : 1 < key.toList.length
  numeral : ∃ n, digitsValue? key.toList = some n ∧ n ≤ greatestIndex

instance (key : String) : Decidable (ZeroPadded key) :=
  decidable_of_iff (key.toList.head? = some '0' ∧ 1 < key.toList.length ∧
      (digitsValue? key.toList).any (· ≤ greatestIndex) = true)
    ⟨fun h => ⟨h.1, h.2.1, by simpa [Option.any_eq_true] using h.2.2⟩,
      fun h => ⟨h.zero, h.more, by simpa [Option.any_eq_true] using h.numeral⟩⟩

variable {key : String}

/-- A numeral has the digits of its value, unless it has zeros in front. -/
theorem toString_eq_iff_of_numeral {n : Nat} (h : digitsValue? key.toList = some n) :
    toString n = key ↔ ¬ (key.toList.head? = some '0' ∧ 1 < key.toList.length) := by
  have hdigits := h
  rw [digitsValue?] at hdigits
  split at hdigits
  · exact absurd hdigits (by simp)
  · next hnumeral =>
      obtain ⟨hsome, hall⟩ : key.toList ≠ [] ∧ ∀ c ∈ key.toList, c.isDigit = true := by
        simpa using hnumeral
      obtain rfl := Option.some.inj hdigits
      constructor
      · rintro heq ⟨hzero, hmore⟩
        obtain ⟨rest, hrest⟩ := List.head?_eq_some_iff.mp hzero
        -- the zero adds nothing, so the value is that of the shorter numeral behind it
        have hvalue : digitsValue? rest = some (digitsValue key.toList) := by
          have hne : rest ≠ [] := by
            rintro rfl
            simp [hrest] at hmore
          have hdigit : ∀ c ∈ rest, c.isDigit = true :=
            fun c hc => hall c (hrest ▸ List.mem_cons_of_mem _ hc)
          rw [digitsValue?, if_neg (by simpa [hne] using hdigit), hrest]
          rfl
        have hlength := length_toString_of_digitsValue? hvalue
        rw [heq, ← String.length_toList, hrest, List.length_cons] at hlength
        omega
      · intro hplain
        refine String.toList_inj.mp ?_
        rw [toList_toString]
        by_cases hzero : key.toList.head? = some '0'
        · obtain ⟨rest, hrest⟩ := List.head?_eq_some_iff.mp hzero
          have hnil : rest = [] := by
            by_contra hne
            refine hplain ⟨hzero, ?_⟩
            rw [hrest, List.length_cons]
            have hpos := List.length_pos_iff.mpr hne
            omega
          rw [hrest, hnil]
          rfl
        · exact (toDigits_digitsValue hall hsome hzero).2

/-- A name is the key that it spells unless it is a numeral with zeros in front. -/
theorem Name.spelledKey_iff (h : Name key) : SpelledKey key ↔ ¬ ZeroPadded key := by
  have hspelled : SpelledKey key ↔ (bareSegment key.toList).asKey = key :=
    ⟨SpelledKey.asRead, fun hread => ⟨h, hread⟩⟩
  have hkey : (Segment.key (String.ofList key.toList) false).asKey = key := String.ofList_toList
  rw [hspelled, bareSegment]
  split
  · next n hn =>
      split
      · next hle =>
          rw [Segment.asKey, toString_eq_iff_of_numeral hn]
          exact not_congr ⟨fun hzeros => ⟨hzeros.1, hzeros.2, n, hn, hle⟩,
            fun hpadded => ⟨hpadded.zero, hpadded.more⟩⟩
      · next hlarge =>
          refine iff_of_true hkey ?_
          rintro ⟨-, -, m, hm, hle⟩
          cases hn.symm.trans hm
          exact hlarge hle
  · next hn =>
      refine iff_of_true hkey ?_
      rintro ⟨-, -, m, hm, -⟩
      exact absurd (hn.symm.trans hm) (by simp)

end Path

end Conform
