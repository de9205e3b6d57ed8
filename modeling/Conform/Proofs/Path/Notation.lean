/-
  Conform.Proofs.Path.Notation

  Paths as they are written. A step is written in one of three ways: a position in
  brackets, a key in brackets and quotes, or a bare key behind a point. Keys in quotes
  may hold all but their own quote. Whatever the ways are mixed, a path is read as the
  steps that it was written of.
-/

import Conform.Proofs.Path.Text

namespace Conform

namespace Path

-- ============================================================================
-- Keys in quotes
-- ============================================================================

/-- The quotes around a key in brackets. -/
inductive Quote where
  | double
  | single
  deriving DecidableEq, Repr

namespace Quote

def char : Quote → Char
  | double => '"'
  | single => '\''

variable (quote : Quote)

theorem char_eq : quote.char = '"' ∨ quote.char = '\'' := by
  cases quote with
  | double => exact Or.inl rfl
  | single => exact Or.inr rfl

theorem quoteAfter_none : quoteAfter none quote.char = some quote.char := if_pos quote.char_eq

theorem quoteAfter_self : quoteAfter (some quote.char) quote.char = none := if_pos rfl

/-- Quotes keep blanks at the ends of a key. -/
theorem trimChars_quoted (body : List Char) :
    trimChars (quote.char :: (body ++ [quote.char])) = quote.char :: (body ++ [quote.char]) := by
  have hquote : isBlank quote.char = false := by cases quote <;> decide
  rw [trimChars, List.dropWhile_cons, hquote, if_neg (by decide), List.reverse_cons,
    List.reverse_append, List.reverse_singleton, List.singleton_append, List.cons_append,
    List.dropWhile_cons, hquote, if_neg (by decide)]
  simp

theorem bracketStep_quoted (body : List Char) :
    bracketStep (quote.char :: (body ++ [quote.char])) = [.key (String.ofList body) true] := by
  have hbody : unquoted quote.char (body ++ [quote.char]) = body := by
    rw [unquoted, if_pos List.getLast?_concat, List.dropLast_concat]
  rw [bracketStep, quote.trimChars_quoted]
  simp only [if_pos quote.char_eq, hbody]

end Quote

/-- Between quotes all characters but the quote belong to the key. -/
theorem stepsFrom_quoted {quote : Char} {body : List Char} (h : quote ∉ body)
    (reversed rest : List Char) :
    stepsFrom (.bracket reversed (some quote)) (body ++ rest) =
      stepsFrom (.bracket (body.reverse ++ reversed) (some quote)) rest := by
  induction body generalizing reversed with
  | nil => rfl
  | cons c body ih =>
      obtain ⟨hc, hbody⟩ := not_or.mp (List.mem_cons.not.mp h)
      have hopen : ¬ (some quote = none ∧ c = ']') := by simp
      have hquote : quoteAfter (some quote) c = some quote := if_neg (Ne.symm hc)
      rw [List.cons_append, stepsFrom, if_neg hopen, hquote, ih hbody, List.reverse_cons,
        List.append_assoc]
      rfl

/-- The text of a key in brackets and quotes. -/
def quotedText (quote : Quote) (key : String) : String :=
  "[" ++ (quote.char.toString ++ (key ++ (quote.char.toString ++ "]")))

theorem reads_quoted {quote : Quote} {key : String} (h : quote.char ∉ key.toList) :
    Reads (quotedText quote key) [.key key true] := by
  intro rest _
  have htext : (quotedText quote key).toList ++ rest =
      '[' :: quote.char :: (key.toList ++ quote.char :: ']' :: rest) := by
    simp [quotedText]
  have hopen : ¬ ((none : Option Char) = none ∧ quote.char = ']') := by
    rintro ⟨-, hc⟩
    rcases quote.char_eq with hq | hq <;> exact absurd (hq.symm.trans hc) (by decide)
  have hclose : ¬ (some quote.char = none ∧ quote.char = ']') := by simp
  have hread : (quote.char :: (key.toList.reverse ++ [quote.char])).reverse =
      quote.char :: (key.toList ++ [quote.char]) := by
    simp
  rw [htext, stepsFrom, if_neg (by decide), if_pos rfl, stepsFrom, if_neg hopen,
    quote.quoteAfter_none, stepsFrom_quoted h, stepsFrom, if_neg hclose, quote.quoteAfter_self,
    stepsFrom, if_pos ⟨rfl, rfl⟩, hread, quote.bracketStep_quoted, String.ofList_toList]
  rfl

-- ============================================================================
-- Written paths
-- ============================================================================

/-- A step with the way in which it is written. -/
inductive Written where
  | position (i : Nat)
  | quoted (quote : Quote) (key : String)
  | bare (key : String)

namespace Written

def segment : Written → Segment
  | position i => .index i
  | quoted _ key => .key key true
  | bare key => .key key false

/-- The text of a step. A bare key has a point in front of it unless it comes first. -/
def text (isFirst : Bool) : Written → String
  | position i => "[" ++ (toString i ++ "]")
  | quoted quote key => quotedText quote key
  | bare key => if isFirst then key else "." ++ key

/-- Whether a step may be written in its way: the position fits in a machine word, the key
    holds no such quote, or it is plain. -/
def Legible : Written → Prop
  | position i => i ≤ greatestIndex
  | quoted quote key => quote.char ∉ key.toList
  | bare key => PlainKey key

instance : DecidablePred Legible := fun step =>
  match step with
  | position i => inferInstanceAs (Decidable (i ≤ greatestIndex))
  | quoted quote key => inferInstanceAs (Decidable (quote.char ∉ key.toList))
  | bare key => inferInstanceAs (Decidable (PlainKey key))

/-- The text of a path, from its first step or from a later one on. -/
def render (isFirst : Bool) : List Written → String
  | [] => ""
  | step :: rest => step.text isFirst ++ render false rest

variable {step : Written} {path : List Written}

theorem reads_text (h : step.Legible) (isFirst : Bool) :
    Reads (step.text isFirst) [step.segment] := by
  cases step with
  | position i => exact reads_position h
  | quoted quote key => exact reads_quoted h
  | bare key =>
      have hkey : PlainKey key := h
      rw [segment, ← hkey.bareSegment_eq]
      cases isFirst with
      | true => exact reads_name hkey.toName
      | false => exact reads_point hkey.toName

/-- A later step goes on with a point or a bracket. -/
theorem goesOn_render {rest : List Char} (hrest : GoesOn rest) :
    GoesOn ((render false path).toList ++ rest) := by
  cases path with
  | nil => exact hrest
  | cons step others =>
      rw [render, String.toList_append, List.append_assoc]
      cases step with
      | position i => exact goesOn_bracket _ _
      | quoted quote key => exact goesOn_bracket _ _
      | bare key => exact goesOn_point _ _

theorem reads_render (h : ∀ step ∈ path, step.Legible) (isFirst : Bool) :
    Reads (render isFirst path) (path.map segment) := by
  induction path generalizing isFirst with
  | nil => exact reads_empty
  | cons step rest ih =>
      obtain ⟨hstep, hrest⟩ := List.forall_mem_cons.mp h
      exact (reads_text hstep isFirst).append (ih hrest false) fun _ => goesOn_render

/-- A written path is read as the steps that it was written of, in their order; keys come
    out as quoted where they were written in brackets. -/
theorem parse_render (h : ∀ step ∈ path, step.Legible) :
    parse (render true path) = path.map segment :=
  (reads_render h true).parse

/-- All three ways in one path, with brackets, points, blanks and the other quote inside of
    quotes. -/
theorem parse_render_mixed :
    parse "größe[\"a.b]'\"][''].x y[0]" =
      [.key "größe" false, .key "a.b]'" true, .key "" true, .key "x y" false, .index 0] := by
  have hlegible : ∀ step ∈ [Written.bare "größe", .quoted .double "a.b]'", .quoted .single "",
      .bare "x y", .position 0], step.Legible := by
    decide
  exact parse_render hlegible

end Written

end Path

end Conform
