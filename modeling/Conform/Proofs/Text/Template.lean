/-
  Conform.Proofs.Text.Template

  Templates put together from literal texts and placeholders. Such a template is filled
  piece by piece, whatever the pieces are: a literal text stays, and for a placeholder
  stands the text for its name. Nothing of that text is looked at again, so the value of a
  parameter may itself read like a placeholder. In a message the texts are those of the
  parameters, and `path` is the name of the place in question.
-/

import Conform.Message
import Conform.Proofs.Text.Ascii
import Mathlib.Data.List.Basic

namespace Conform

namespace Template

-- ============================================================================
-- Pieces
-- ============================================================================

/-- A text without a dollar sign. -/
structure Literal where
  text : String
  plain : '$' ∉ text.toList := by decide

/-- A placeholder: a name with blanks around it. -/
structure Slot where
  before : String
  name : String
  behind : String
  blank_before : before.toList.all isAsciiBlank = true := by decide
  named : name.toList ≠ [] := by decide
  name_chars : name.toList.all isNameChar = true := by decide
  blank_behind : behind.toList.all isAsciiBlank = true := by decide

/-- A placeholder as it is written. -/
def Slot.text (s : Slot) : String := "$\x7b" ++ s.before ++ s.name ++ s.behind ++ "\x7d"

/-- A piece of a template. -/
inductive Chunk where
  | literal (l : Literal)
  | slot (s : Slot)

namespace Chunk

/-- A piece as it is written. -/
def text : Chunk → String
  | literal l => l.text
  | slot s => s.text

/-- What stands for a piece, given the texts for the names. -/
def filled (texts : String → String) : Chunk → String
  | literal l => l.text
  | slot s => texts s.name

end Chunk

variable {texts : String → String} {cs rest : List Char}

-- ============================================================================
-- Filling
-- ============================================================================

/-- A text without a dollar sign stays as it is. -/
theorem fillFrom_literal (h : '$' ∉ cs) (rest : List Char) :
    fillFrom texts 0 (cs ++ rest) = cs ++ fillFrom texts 0 rest := by
  induction cs with
  | nil => rfl
  | cons c cs ih =>
      obtain ⟨hc, hcs⟩ := not_or.mp (List.mem_cons.not.mp h)
      rw [List.cons_append, fillFrom, if_neg (Ne.symm hc), ih hcs]
      rfl

/-- What belongs to a placeholder that is filled already leaves nothing. -/
theorem fillFrom_skipped (cs rest : List Char) :
    fillFrom texts cs.length (cs ++ rest) = fillFrom texts 0 rest := by
  induction cs with
  | nil => rfl
  | cons c cs ih => rw [List.cons_append, List.length_cons, fillFrom, ih]

/-- A run of a class of characters is taken to its end, where another character follows. -/
theorem span_append {p : Char → Bool} (rest : List Char) (hcs : ∀ c ∈ cs, p c = true)
    (hrest : ∀ c ∈ rest.head?, p c = false) :
    (cs ++ rest).takeWhile p = cs ∧ (cs ++ rest).dropWhile p = rest := by
  rw [List.takeWhile_append_of_pos hcs, List.dropWhile_append_of_pos hcs]
  cases rest with
  | nil => exact ⟨List.append_nil _, rfl⟩
  | cons c rest =>
      have hc : p c = false := hrest c rfl
      rw [List.takeWhile_cons, List.dropWhile_cons, hc]
      exact ⟨List.append_nil _, rfl⟩

namespace Slot

/-- A placeholder behind its dollar sign. -/
def body (s : Slot) : List Char :=
  '\x7b' :: (s.before.toList ++ s.name.toList ++ s.behind.toList ++ ['\x7d'])

theorem toList_text (s : Slot) : s.text.toList = '$' :: s.body := by
  simp [Slot.text, body]

/-- Behind the name comes a blank or the closing brace. -/
theorem not_word_behind (s : Slot) (rest : List Char) :
    ∀ c ∈ (s.behind.toList ++ '\x7d' :: rest).head?, isWordChar c = false := by
  have hblank := List.all_eq_true.mp s.blank_behind
  intro c hc
  cases hbehind : s.behind.toList with
  | nil =>
      obtain rfl : '\x7d' = c := by simpa [hbehind] using hc
      decide
  | cons d ds =>
      obtain rfl : d = c := by simpa [hbehind] using hc
      exact (blank_of_isAsciiBlank (hblank d (hbehind ▸ List.mem_cons_self))).2

/-- A placeholder is found with its name and up to its end. -/
theorem slot?_body (s : Slot) (rest : List Char) :
    slot? (s.body ++ rest) = some (s.name.toList, s.body.length) := by
  have hbody : s.body ++ rest =
      '\x7b' :: (s.before.toList ++ (s.name.toList ++ (s.behind.toList ++ '\x7d' :: rest))) := by
    simp [body]
  have hlength : s.body.length =
      2 + s.before.toList.length + s.name.toList.length + s.behind.toList.length := by
    simp only [body, List.length_cons, List.length_append, List.length_nil]
    omega
  have hword := List.all_eq_true.mp s.name_chars
  obtain ⟨hmargin, hinner⟩ := span_append (p := isBlank)
    (s.name.toList ++ (s.behind.toList ++ '\x7d' :: rest))
    (fun c hc => (blank_of_isAsciiBlank (List.all_eq_true.mp s.blank_before c hc)).1)
    fun c hc => by
      rw [List.head?_append_of_ne_nil _ s.named] at hc
      exact (word_of_isNameChar (hword c (List.mem_of_mem_head? hc))).2
  obtain ⟨hname, hbehind⟩ := span_append _ (fun c hc => (word_of_isNameChar (hword c hc)).1)
    (s.not_word_behind rest)
  obtain ⟨hblanks, hclose⟩ := span_append (p := isBlank) ('\x7d' :: rest)
    (fun c hc => (blank_of_isAsciiBlank (List.all_eq_true.mp s.blank_behind c hc)).1)
    fun c hc => by
      obtain rfl : '\x7d' = c := Option.some.inj hc
      decide
  have hnamed : s.name.toList.isEmpty = false := List.isEmpty_eq_false_iff.mpr s.named
  simp only [hbody, hlength, slot?, hmargin, hinner, hname, hbehind, hblanks, hclose, hnamed,
    Bool.false_eq_true, if_false]

end Slot

/-- A placeholder becomes the text for its name, which is not looked at again. -/
theorem fillFrom_slot (s : Slot) (rest : List Char) :
    fillFrom texts 0 (s.text.toList ++ rest) = (texts s.name).toList ++ fillFrom texts 0 rest := by
  rw [s.toList_text, List.cons_append, fillFrom, if_pos rfl, s.slot?_body]
  dsimp only
  rw [String.ofList_toList, fillFrom_skipped]

/-- A piece is filled by itself, whatever comes behind it. -/
theorem fillFrom_chunk (c : Chunk) (rest : List Char) :
    fillFrom texts 0 (c.text.toList ++ rest) =
      (c.filled texts).toList ++ fillFrom texts 0 rest := by
  cases c with
  | literal l => exact fillFrom_literal l.plain rest
  | slot s => exact fillFrom_slot s rest

/-- A template is filled piece by piece. -/
theorem fill_join (chunks : List Chunk) (texts : String → String) :
    fill (String.join (chunks.map Chunk.text)) texts =
      String.join (chunks.map (Chunk.filled texts)) := by
  refine String.toList_inj.mp ?_
  rw [fill, String.toList_ofList, String.toList_join, String.toList_join]
  induction chunks with
  | nil => rfl
  | cons c rest ih =>
      rw [List.map_cons, List.flatMap_cons, fillFrom_chunk, ih, List.map_cons, List.flatMap_cons]

end Template

-- ============================================================================
-- Messages
-- ============================================================================

namespace Message

/-- The value that a name stands for in a message. The path stands for the label of the
    place, else for the path, else for `this`; a null counts as missing there. -/
def meant (params : Dict Value) (name : String) : Option Value :=
  if name = "path" then
    if isAbsent (Dict.get? params "label") then
      if isAbsent (Dict.get? params "path") then some (.str "this") else Dict.get? params "path"
    else Dict.get? params "label"
  else Dict.get? params name

/-- A value that may be undefined is passed over, or it is there and is taken. -/
theorem filter_isNull_cases (v : Option Value) :
    isAbsent v = true ∧ v.filter (fun u => !u.isNull) = none ∨
      ∃ u, v = some u ∧ isAbsent v = false ∧ v.filter (fun u => !u.isNull) = some u := by
  cases v with
  | none => exact .inl ⟨rfl, rfl⟩
  | some u =>
      cases hnull : u.isNull with
      | true => exact .inl ⟨hnull, by simp [hnull]⟩
      | false => exact .inr ⟨u, rfl, hnull, by simp [hnull]⟩

theorem some_displayPath (params : Dict Value) :
    some (displayPath params) = meant params "path" := by
  rw [displayPath, meant, if_pos rfl]
  dsimp only
  rcases filter_isNull_cases (Dict.get? params "label") with
    ⟨hlabel, hpassed⟩ | ⟨v, hv, hlabel, htaken⟩
  · rw [hlabel, hpassed, if_pos rfl]
    rcases filter_isNull_cases (Dict.get? params "path") with
      ⟨hpath, hpassed⟩ | ⟨v, hv, hpath, htaken⟩
    · rw [hpath, hpassed]; rfl
    · rw [hpath, htaken, hv]; rfl
  · rw [hlabel, htaken, hv]; rfl

/-- The parameters that a message sees give each name the value that it stands for. -/
theorem get?_prepared (params : Dict Value) (name : String) :
    Dict.get? (prepared params) name = meant params name := by
  by_cases hpath : name = "path"
  · rw [hpath, prepared, Dict.get?_insert_self, some_displayPath]
  · rw [prepared, Dict.get?_insert_of_ne _ _ hpath, meant, if_neg hpath]

/-- A template is filled in a single pass: literal texts stay, and each placeholder becomes
    the text of the value that its name stands for, with nothing in it expanded. -/
theorem format_chunks (chunks : List Template.Chunk) (params : Dict Value) :
    ((template (String.join (chunks.map Template.Chunk.text))).format params).1 =
      String.join (chunks.map (Template.Chunk.filled fun name =>
        printValue (meant params name) false)) := by
  have htexts : (fun name => printValue (Dict.get? (prepared params) name) false) =
      fun name => printValue (meant params name) false := by
    funext name
    rw [get?_prepared]
  rw [format, text, Template.fill_join, htexts]

/-- A value that reads like a placeholder is put in as it is. -/
example :
    ((template (String.join (([.slot { before := " ", name := "a", behind := "\t" },
      .literal { text := " of \x7b" }, .slot { before := "", name := "path", behind := "" }] :
        List Template.Chunk).map Template.Chunk.text))).format
      [("a", .str "$\x7bb\x7d"), ("b", .bool true), ("label", .null)]).1 =
      "$\x7bb\x7d of \x7bthis" := by
  decide +kernel

end Message

end Conform
