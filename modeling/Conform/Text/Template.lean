/-
  Conform.Text.Template

  Message templates: each placeholder, a dollar sign and a name in braces, is
  replaced once, from left to right; what is put in is not read again.
-/

import Conform.Text.Blank
import Conform.Text.WordChars

namespace Conform

namespace Template

/-- The name in a placeholder and the number of characters up to its end, when one goes on
    behind the dollar sign: an opening brace, blanks, one or more word characters, blanks, and
    a closing brace, with blanks and word characters as Unicode has them. No blank is a word
    character, so that a pattern of this form can match the longest runs only. -/
def slot? : List Char → Option (List Char × Nat)
  | '\x7b' :: cs =>
    let margin := cs.takeWhile isBlank
    let inner := cs.dropWhile isBlank
    let name := inner.takeWhile isWordChar
    let behind := inner.dropWhile isWordChar
    match behind.dropWhile isBlank with
    | '\x7d' :: _ =>
      if name.isEmpty then none
      else
        let length := 2 + margin.length + name.length + (behind.takeWhile isBlank).length
        some (name, length)
    | _ => none
  | _ => none

/-- Fills the placeholders of a text, of which the first `skipped` characters
    belong to a placeholder that is filled already. -/
def fillFrom (text : String → String) (skipped : Nat) : List Char → List Char
  | [] => []
  | c :: cs =>
    match skipped with
    | k + 1 => fillFrom text k cs
    | 0 =>
      if c = '$' then
        match slot? cs with
        | some (name, length) => (text (String.ofList name)).toList ++ fillFrom text length cs
        | none => c :: fillFrom text 0 cs
      else c :: fillFrom text 0 cs

/-- A template with each placeholder replaced by the text for its name: from left to right,
    none over another, and what is put in is not searched. -/
def fill (template : String) (text : String → String) : String :=
  String.ofList (fillFrom text 0 template.toList)

end Template

end Conform
