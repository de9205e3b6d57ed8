/-
  Conform.Value.Writer

  The text of a value: compact document text, document text with an
  indentation of two spaces, and the text of a value inside a message.
-/

import Conform.Number.Notation
import Conform.Value.Basic

namespace Conform

/-! ## Quoted text -/

/-- A character inside a quoted text. Only the quote, the backslash and the
    control characters are escaped. -/
def escapeChar (c : Char) : List Char :=
  if c = '"' then ['\\', '"']
  else if c = '\\' then ['\\', '\\']
  else if c = '\x08' then ['\\', 'b']
  else if c = '\x0c' then ['\\', 'f']
  else if c = '\n' then ['\\', 'n']
  else if c = '\r' then ['\\', 'r']
  else if c = '\t' then ['\\', 't']
  else if c.toNat < 32 then
    ['\\', 'u', '0', '0', Nat.digitChar (c.toNat / 16), Nat.digitChar (c.toNat % 16)]
  else [c]

/-- A text in quotes. -/
def quoted (s : String) : String :=
  String.ofList ('"' :: s.toList.flatMap escapeChar ++ ['"'])

namespace Value

/-! ## Compact text -/

mutual

/-- Document text without spaces. -/
def compact : Value → String
  | null => "null"
  | bool true => "true"
  | bool false => "false"
  | num n => n.documentText
  | str s => quoted s
  | arr items => "[" ++ ",".intercalate (compactItems items) ++ "]"
  | obj fields => "\x7b" ++ ",".intercalate (compactFields fields) ++ "\x7d"

def compactItems : List Value → List String
  | [] => []
  | v :: rest => v.compact :: compactItems rest

def compactFields : List (String × Value) → List String
  | [] => []
  | (key, v) :: rest => (quoted key ++ ":" ++ v.compact) :: compactFields rest

end

/-! ## Indented text -/

/-- A new line at a depth of nesting. -/
def newLine (depth : Nat) : String := "\n" ++ String.ofList (List.replicate (2 * depth) ' ')

/-- Lines of a container at a depth, between its brackets. -/
def bracketed (opening closing : String) (depth : Nat) (lines : List String) : String :=
  if lines.isEmpty then opening ++ closing
  else
    let inner := newLine (depth + 1)
    opening ++ inner ++ ("," ++ inner).intercalate lines ++ newLine depth ++ closing

mutual

/-- Document text over several lines, for a value at a depth of nesting. -/
def indented (depth : Nat) : Value → String
  | arr items => bracketed "[" "]" depth (indentedItems (depth + 1) items)
  | obj fields => bracketed "\x7b" "\x7d" depth (indentedFields (depth + 1) fields)
  | v => v.compact

def indentedItems (depth : Nat) : List Value → List String
  | [] => []
  | v :: rest => v.indented depth :: indentedItems depth rest

def indentedFields (depth : Nat) : List (String × Value) → List String
  | [] => []
  | (key, v) :: rest => (quoted key ++ ": " ++ v.indented depth) :: indentedFields depth rest

end

end Value

/-! ## Text in messages -/

/-- A value as a message shows it; texts are put in quotes on demand, with
    nothing escaped. -/
def printValue (value : Option Value) (quoteTexts : Bool) : String :=
  match value with
  | none => "undefined"
  | some (.num n) => n.messageText
  | some (.str s) => if quoteTexts then "\"" ++ s ++ "\"" else s
  | some v => v.indented 0

end Conform
