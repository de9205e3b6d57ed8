/-
  Conform.Proofs.Path.Text

  What is read of a path that was built of keys and positions. A text reads as some
  steps if it is read as these steps whatever is appended to it behind a point or a
  bracket. Names and positions in brackets do so, and so does what they are joined to;
  a name is read as a key, or as a position if it has nothing but digits.
-/

import Conform.Path.Basic
import Mathlib.Data.List.Basic

namespace Conform

-- ============================================================================
-- Numerals
-- ============================================================================

theorem digitsValue_toDigits (n : Nat) : digitsValue (Nat.toDigits 10 n) = n := by
  have h : digitsValue (Nat.toDigits 10 n) = Nat.ofDigitChars 10 (Nat.toDigits 10 n) 0 := by
    rw [Nat.ofDigitChars_eq_foldl, digitsValue]
    simp only [Nat.mul_comm]
  rw [h, Nat.ofDigitChars_ten_toDigits]

theorem toList_toString (n : Nat) : (toString n).toList = Nat.toDigits 10 n := by
  rw [Nat.toString_eq_ofList_toDigits, String.toList_ofList]

theorem isDigit_of_mem_toString {n : Nat} {c : Char} (h : c ∈ (toString n).toList) :
    c.isDigit = true := by
  rw [toList_toString] at h
  exact Nat.isDigit_of_mem_toDigits (by decide) (by decide) h

theorem toList_toString_ne_nil (n : Nat) : (toString n).toList ≠ [] := by
  rw [toList_toString]
  exact Nat.toDigits_ne_nil

/-- The digits of a number are read as the number. -/
theorem digitsValue?_toString (n : Nat) : digitsValue? (toString n).toList = some n := by
  have hdigits : (toString n).toList.all Char.isDigit = true :=
    List.all_eq_true.mpr fun _ => isDigit_of_mem_toString
  have hsome : (toString n).toList.isEmpty = false :=
    List.isEmpty_eq_false_iff.mpr (toList_toString_ne_nil n)
  rw [digitsValue?, hdigits, hsome, if_neg (by decide), toList_toString, digitsValue_toDigits]

theorem isBlank_of_isDigit {c : Char} (h : c.isDigit = true) : isBlank c = false := by
  have hcode : 0x30 ≤ c.toNat ∧ c.toNat ≤ 0x39 := Char.isDigit_iff_toNat.mp h
  have hblank : ¬ c.toNat ≤ 0xD ∧ ¬ c.toNat ≤ 0x20 ∧ c.toNat < 0x85 := by omega
  simp [isBlank, CharRanges.hasChar, CharRanges.has, blankRanges, hblank]

theorem trimChars_of_forall {cs : List Char} (h : ∀ c ∈ cs, isBlank c = false) :
    trimChars cs = cs := by
  have hkept {ds : List Char} (hds : ∀ c ∈ ds, isBlank c = false) : ds.dropWhile isBlank = ds := by
    cases ds with
    | nil => rfl
    | cons c rest => rw [List.dropWhile_cons, hds c List.mem_cons_self]; rfl
  rw [trimChars, hkept h, hkept fun c hc => h c (List.mem_reverse.mp hc), List.reverse_reverse]

namespace Path

-- ============================================================================
-- Parts
-- ============================================================================

/-- Whether a key is written in a path as it is: it is read as one part, and as a key. -/
structure PlainKey (key : String) : Prop where
  nonempty : key.toList ≠ []
  noPoint : '.' ∉ key.toList
  noBracket : '[' ∉ key.toList
  trimmed : trimChars key.toList = key.toList
  notDigits : key.toList.all Char.isDigit = false

/-- Whether a text is read in a path as one part, be it a key or a position. -/
structure Name (name : String) : Prop where
  nonempty : name.toList ≠ []
  noPoint : '.' ∉ name.toList
  noBracket : '[' ∉ name.toList
  trimmed : trimChars name.toList = name.toList

instance (name : String) : Decidable (Name name) :=
  decidable_of_iff (name.toList ≠ [] ∧ '.' ∉ name.toList ∧ '[' ∉ name.toList ∧
      trimChars name.toList = name.toList)
    ⟨fun h => ⟨h.1, h.2.1, h.2.2.1, h.2.2.2⟩,
      fun h => ⟨h.nonempty, h.noPoint, h.noBracket, h.trimmed⟩⟩

theorem PlainKey.toName {key : String} (h : PlainKey key) : Name key :=
  ⟨h.nonempty, h.noPoint, h.noBracket, h.trimmed⟩

instance (key : String) : Decidable (PlainKey key) :=
  decidable_of_iff (Name key ∧ key.toList.all Char.isDigit = false)
    ⟨fun h => ⟨h.1.nonempty, h.1.noPoint, h.1.noBracket, h.1.trimmed, h.2⟩,
      fun h => ⟨h.toName, h.notDigits⟩⟩

theorem PlainKey.bareSegment_eq {key : String} (h : PlainKey key) :
    bareSegment key.toList = .key key false := by
  have hdigits : digitsValue? key.toList = none := by rw [digitsValue?, h.notDigits]; simp
  rw [bareSegment, hdigits, String.ofList_toList]

theorem bareStep_name {name : String} (h : Name name) :
    bareStep name.toList = [bareSegment name.toList] := by
  rw [bareStep, h.trimmed]
  split
  · next hnil => exact absurd hnil h.nonempty
  · rfl

theorem bracketStep_index {position : Nat} (h : position ≤ greatestIndex) :
    bracketStep (toString position).toList = [.index position] := by
  have htrim : trimChars (toString position).toList = (toString position).toList :=
    trimChars_of_forall fun c hc => isBlank_of_isDigit (isDigit_of_mem_toString hc)
  rw [bracketStep, htrim]
  split
  · next hnil => exact absurd hnil (toList_toString_ne_nil position)
  · next c body hcons =>
      have hdigit : c.isDigit = true :=
        isDigit_of_mem_toString (hcons ▸ List.mem_cons_self)
      rw [if_neg (by rintro (rfl | rfl) <;> exact absurd hdigit (by decide)), ← hcons, bareSegment,
        digitsValue?_toString]
      simp only [if_pos h]

theorem stepsFrom_bare {cs : List Char} (hpoint : '.' ∉ cs) (hbracket : '[' ∉ cs)
    (reversed rest : List Char) :
    stepsFrom (.bare reversed) (cs ++ rest) = stepsFrom (.bare (cs.reverse ++ reversed)) rest := by
  induction cs generalizing reversed with
  | nil => rfl
  | cons c cs ih =>
      obtain ⟨hc, hcs⟩ := not_or.mp (List.mem_cons.not.mp hpoint)
      obtain ⟨hb, hbs⟩ := not_or.mp (List.mem_cons.not.mp hbracket)
      rw [List.cons_append, stepsFrom, if_neg (Ne.symm hc), if_neg (Ne.symm hb), ih hcs hbs,
        List.reverse_cons, List.append_assoc]
      rfl

theorem stepsFrom_bracket {cs : List Char} (hdigits : ∀ c ∈ cs, c.isDigit = true)
    (reversed rest : List Char) :
    stepsFrom (.bracket reversed none) (cs ++ rest) =
      stepsFrom (.bracket (cs.reverse ++ reversed) none) rest := by
  induction cs generalizing reversed with
  | nil => rfl
  | cons c cs ih =>
      have hc := hdigits c List.mem_cons_self
      have hclose : ¬ (none = (none : Option Char) ∧ c = ']') := by
        rintro ⟨-, rfl⟩
        exact absurd hc (by decide)
      have hquote : quoteAfter none c = none :=
        if_neg (by rintro (rfl | rfl) <;> exact absurd hc (by decide))
      rw [List.cons_append, stepsFrom, if_neg hclose, hquote,
        ih fun d hd => hdigits d (List.mem_cons_of_mem _ hd), List.reverse_cons, List.append_assoc]
      rfl

-- ============================================================================
-- Joined paths
-- ============================================================================

/-- Whether a text is at the end of a path, or goes on with a point or a bracket. -/
inductive GoesOn : List Char → Prop where
  | stop : GoesOn []
  | point (cs : List Char) : GoesOn ('.' :: cs)
  | bracket (cs : List Char) : GoesOn ('[' :: cs)

theorem goesOn_point (text : String) (rest : List Char) :
    GoesOn (("." ++ text).toList ++ rest) := by
  rw [String.toList_append]
  exact .point _

theorem goesOn_bracket (text : String) (rest : List Char) :
    GoesOn (("[" ++ text).toList ++ rest) := by
  rw [String.toList_append]
  exact .bracket _

/-- Whether a text reads as some steps, whatever comes behind it. -/
def Reads (text : String) (steps : List Segment) : Prop :=
  ∀ rest, GoesOn rest →
    stepsFrom (.bare []) (text.toList ++ rest) = steps ++ stepsFrom (.bare []) rest

variable {text key : String} {steps : List Segment} {parent : Option String} {position : Nat}

theorem reads_empty : Reads "" [] := fun _ _ => rfl

theorem Reads.parse (h : Reads text steps) : parse text = steps := by
  have hnil := h [] .stop
  rw [List.append_nil] at hnil
  rw [Path.parse, hnil]
  exact List.append_nil _

/-- Texts that are read by themselves are read one behind the other, where the second goes
    on with a point or a bracket. -/
theorem Reads.append {next : String} {more : List Segment} (h : Reads text steps)
    (hnext : Reads next more) (hgoesOn : ∀ rest, GoesOn rest → GoesOn (next.toList ++ rest)) :
    Reads (text ++ next) (steps ++ more) := by
  intro rest hrest
  rw [String.toList_append, List.append_assoc, h _ (hgoesOn rest hrest), hnext rest hrest,
    List.append_assoc]

theorem reads_name (h : Name key) : Reads key [bareSegment key.toList] := by
  intro rest hrest
  have hstep : bareStep key.toList.reverse.reverse = [bareSegment key.toList] := by
    rw [List.reverse_reverse, bareStep_name h]
  rw [stepsFrom_bare h.noPoint h.noBracket, List.append_nil]
  cases hrest with
  | stop => rw [stepsFrom, hstep]; rfl
  | point cs => rw [stepsFrom, if_pos rfl, hstep]; rfl
  | bracket cs => rw [stepsFrom, if_neg (by decide), if_pos rfl, hstep]; rfl

theorem reads_point (h : Name key) : Reads ("." ++ key) [bareSegment key.toList] := by
  intro rest hrest
  rw [String.toList_append, List.append_assoc, ← reads_name h rest hrest]
  rfl

theorem reads_position (h : position ≤ greatestIndex) :
    Reads ("[" ++ (toString position ++ "]")) [.index position] := by
  intro rest _
  have hbracket : ("[" ++ (toString position ++ "]")).toList ++ rest =
      '[' :: ((toString position).toList ++ ']' :: rest) := by
    simp
  rw [hbracket, stepsFrom, if_neg (by decide), if_pos rfl,
    stepsFrom_bracket fun _ => isDigit_of_mem_toString, List.append_nil, stepsFrom,
    if_pos ⟨rfl, rfl⟩, List.reverse_reverse, bracketStep_index h]
  rfl

/-! ### Closed brackets -/

/-- Whether the rest of a path closes every bracket that it opens or that is open. -/
def closesFrom : Reading → List Char → Bool
  | .bare _, [] => true
  | .bracket _ _, [] => false
  | .bare reversed, c :: cs =>
    if c = '.' then closesFrom (.bare []) cs
    else if c = '[' then closesFrom (.bracket [] none) cs
    else closesFrom (.bare (c :: reversed)) cs
  | .bracket reversed quote, c :: cs =>
    if quote = none ∧ c = ']' then closesFrom (.bare []) cs
    else closesFrom (.bracket (c :: reversed) (quoteAfter quote c)) cs

/-- Whether a path leaves no bracket open, so that what comes behind it is not taken as a
    part of a key. -/
def Closed (path : String) : Prop := closesFrom (.bare []) path.toList = true

instance (path : String) : Decidable (Closed path) :=
  inferInstanceAs (Decidable (closesFrom (.bare []) path.toList = true))

theorem stepsFrom_goesOn {rest : List Char} (h : GoesOn rest) (reversed : List Char) :
    stepsFrom (.bare reversed) rest =
      stepsFrom (.bare reversed) [] ++ stepsFrom (.bare []) rest := by
  have hnone : bareStep [] = [] := rfl
  cases h with
  | stop => simp [stepsFrom, hnone]
  | point cs => simp [stepsFrom, hnone]
  | bracket cs => simp [stepsFrom, hnone]

theorem stepsFrom_append {reading : Reading} {cs rest : List Char}
    (h : closesFrom reading cs = true) (hrest : GoesOn rest) :
    stepsFrom reading (cs ++ rest) = stepsFrom reading cs ++ stepsFrom (.bare []) rest := by
  induction reading, cs using closesFrom.induct with
  | case1 reversed => exact stepsFrom_goesOn hrest reversed
  | case2 => exact absurd h (by simp [closesFrom])
  | case3 reversed cs ih =>
      rw [closesFrom, if_pos rfl] at h
      simp [stepsFrom, ih h]
  | case4 reversed cs hpoint ih =>
      rw [closesFrom, if_neg hpoint, if_pos rfl] at h
      simp [stepsFrom, ih h]
  | case5 reversed c cs hpoint hopen ih =>
      rw [closesFrom, if_neg hpoint, if_neg hopen] at h
      simp [stepsFrom, hpoint, hopen, ih h]
  | case6 reversed quote c cs hclose ih =>
      rw [closesFrom, if_pos hclose] at h
      simp [stepsFrom, hclose, ih h]
  | case7 reversed quote c cs hclose ih =>
      rw [closesFrom, if_neg hclose] at h
      rw [List.cons_append, stepsFrom, if_neg hclose, stepsFrom, if_neg hclose]
      exact ih h

theorem Closed.reads {path : String} (h : Closed path) : Reads path (parse path) :=
  fun _ hrest => stepsFrom_append h hrest

/-- A path behind a point is read by itself. -/
theorem Reads.parse_point (h : Reads text steps) (next : String) :
    Path.parse (text ++ "." ++ next) = steps ++ Path.parse next := by
  have hnext : GoesOn ('.' :: next.toList) := .point next.toList
  have hpoint : (text ++ "." ++ next).toList = text.toList ++ '.' :: next.toList := by simp
  rw [Path.parse, hpoint, h _ hnext]
  rfl

/-! ### Names and positions -/

/-- A name that is joined to a path is read as one more step. -/
theorem Reads.joinName (h : Reads (parent.getD "") steps) (hkey : Name key) :
    Reads (joinKey parent key) (steps ++ [bareSegment key.toList]) := by
  have halone (hempty : Reads "" steps) : Reads key (steps ++ [bareSegment key.toList]) := by
    obtain rfl : steps = [] := hempty.parse.symm.trans reads_empty.parse
    exact reads_name hkey
  cases parent with
  | none => exact halone h
  | some p =>
      replace h : Reads p steps := h
      rw [Path.joinKey]
      split
      · next hempty => exact halone (String.isEmpty_iff.mp hempty ▸ h)
      · rw [String.append_assoc]
        exact h.append (reads_point hkey) fun rest _ => goesOn_point key rest

/-- A position that is joined to a path is read as one more step. -/
theorem Reads.joinIndex (h : Reads (parent.getD "") steps) (hposition : position ≤ greatestIndex) :
    Reads (joinIndex parent position) (steps ++ [.index position]) := by
  rw [Path.joinIndex, String.append_assoc, String.append_assoc]
  exact h.append (reads_position hposition) fun rest _ => goesOn_bracket _ rest

end Path

end Conform
