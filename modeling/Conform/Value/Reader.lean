/-
  Conform.Value.Reader

  Reading document text, strictly: no comments, no trailing commas, no lone
  surrogates, no float beyond binary64, and a bounded nesting of containers.
-/

import Conform.Number.Numeral
import Conform.Value.Basic

namespace Conform

namespace Reader

/-- The only blanks of a document. -/
def isDocumentBlank (c : Char) : Bool := c = ' ' || c = '\t' || c = '\n' || c = '\r'

def skipBlanks (cs : List Char) : List Char := cs.dropWhile isDocumentBlank

/-! ## Texts -/

def hexDigit? (c : Char) : Option Nat :=
  if '0' ≤ c ∧ c ≤ '9' then some (c.toNat - '0'.toNat)
  else if 'a' ≤ c ∧ c ≤ 'f' then some (c.toNat - 'a'.toNat + 10)
  else if 'A' ≤ c ∧ c ≤ 'F' then some (c.toNat - 'A'.toNat + 10)
  else none

/-- Four hexadecimal digits at the front. -/
def takeHex4 : List Char → Option (Nat × List Char)
  | a :: b :: c :: d :: rest => do
    let a ← hexDigit? a
    let b ← hexDigit? b
    let c ← hexDigit? c
    let d ← hexDigit? d
    return (((a * 16 + b) * 16 + c) * 16 + d, rest)
  | _ => none

/-- The character of an escape `\u`, behind the `u`. A high surrogate needs a
    low one next to it. -/
def takeUnicodeEscape (cs : List Char) : Option (Char × List Char) := do
  let (unit, rest) ← takeHex4 cs
  if unit < 0xD800 ∨ 0xE000 ≤ unit then return (Char.ofNat unit, rest)
  else if 0xDC00 ≤ unit then none
  else match rest with
    | '\\' :: 'u' :: rest => do
      let (low, rest) ← takeHex4 rest
      if 0xDC00 ≤ low ∧ low < 0xE000 then
        return (Char.ofNat (0x10000 + (unit - 0xD800) * 0x400 + (low - 0xDC00)), rest)
      else none
    | _ => none

/-- The character of an escape, behind the backslash. -/
def takeEscape : List Char → Option (Char × List Char)
  | '"' :: rest => some ('"', rest)
  | '\\' :: rest => some ('\\', rest)
  | '/' :: rest => some ('/', rest)
  | 'b' :: rest => some ('\x08', rest)
  | 'f' :: rest => some ('\x0c', rest)
  | 'n' :: rest => some ('\n', rest)
  | 'r' :: rest => some ('\r', rest)
  | 't' :: rest => some ('\t', rest)
  | 'u' :: rest => takeUnicodeEscape rest
  | _ => none

/-- The rest of a text behind its opening quote. The fuel is at least the
    number of characters. -/
def takeText (fuel : Nat) (reversed : List Char) (cs : List Char) :
    Option (String × List Char) :=
  match fuel with
  | 0 => none
  | fuel + 1 =>
    match cs with
    | [] => none
    | '"' :: rest => some (String.ofList reversed.reverse, rest)
    | '\\' :: rest =>
      match takeEscape rest with
      | some (c, rest) => takeText fuel (c :: reversed) rest
      | none => none
    | c :: rest => if c.toNat < 32 then none else takeText fuel (c :: reversed) rest

/-! ## Numbers -/

/-- The digits of a whole part: a zero stands alone. -/
def takeWhole (cs : List Char) : Option (List Char × List Char) :=
  match Numeral.takeDigits cs with
  | ([], _) => none
  | ('0' :: _ :: _, _) => none
  | (digits, rest) => some (digits, rest)

/-- The digits of a fraction, where a point follows. -/
def takeFraction : List Char → Option (List Char × List Char)
  | '.' :: rest =>
    match Numeral.takeDigits rest with
    | ([], _) => none
    | (digits, rest) => some (digits, rest)
  | rest => some ([], rest)

/-- A numeral without point and exponent is an integer if it is in range and
    not a negative zero; every other numeral is a float. -/
def numberOf? (n : Numeral) (isInteger : Bool) : Option Number :=
  let magnitude := digitsValue n.whole
  let i : Int := if n.negative then -(magnitude : Int) else magnitude
  if isInteger && !(n.negative && magnitude == 0) &&
      Number.leastInt ≤ i && i ≤ Number.greatestInt then
    some (.int i)
  else n.toBinary64?.map .float

def takeNumber (cs : List Char) : Option (Number × List Char) := do
  let (negative, rest) := match cs with
    | '-' :: rest => (true, rest)
    | rest => (false, rest)
  let (whole, rest) ← takeWhole rest
  let (fraction, rest) ← takeFraction rest
  let hasExponent := rest.head?.any fun c => c = 'e' || c = 'E'
  let (exponent, rest) ← Numeral.takeExponent rest
  let number ← numberOf? ⟨negative, whole, fraction, exponent⟩ (fraction.isEmpty && !hasExponent)
  return (number, rest)

/-! ## Values -/

/-- Reads one value at the front. -/
abbrev ValueReader := List Char → Option (Value × List Char)

/-- The items of an array up to its closing bracket, at least one. -/
def takeItems (read : ValueReader) (fuel : Nat) (cs : List Char) :
    Option (List Value × List Char) :=
  match fuel with
  | 0 => none
  | fuel + 1 => do
    let (item, rest) ← read cs
    match skipBlanks rest with
    | ']' :: rest => return ([item], rest)
    | ',' :: rest =>
      let (items, rest) ← takeItems read fuel rest
      return (item :: items, rest)
    | _ => none

/-- The fields of an object up to its closing brace, at least one. The size is
    more than the number of characters. -/
def takeFields (read : ValueReader) (size fuel : Nat) (cs : List Char) :
    Option (List (String × Value) × List Char) :=
  match fuel with
  | 0 => none
  | fuel + 1 => do
    match skipBlanks cs with
    | '"' :: rest =>
      let (key, rest) ← takeText size [] rest
      match skipBlanks rest with
      | ':' :: rest =>
        let (value, rest) ← read rest
        match skipBlanks rest with
        | '\x7d' :: rest => return ([(key, value)], rest)
        | ',' :: rest =>
          let (fields, rest) ← takeFields read size fuel rest
          return ((key, value) :: fields, rest)
        | _ => none
      | _ => none
    | _ => none

/-- Reads one value with at most `nesting` containers inside each other. The
    size is more than the number of characters. -/
def takeValue (size nesting : Nat) : ValueReader := fun cs =>
  match skipBlanks cs with
  | 'n' :: 'u' :: 'l' :: 'l' :: rest => some (.null, rest)
  | 't' :: 'r' :: 'u' :: 'e' :: rest => some (.bool true, rest)
  | 'f' :: 'a' :: 'l' :: 's' :: 'e' :: rest => some (.bool false, rest)
  | '"' :: rest => (takeText size [] rest).map fun (s, rest) => (.str s, rest)
  | '[' :: rest =>
    match nesting with
    | 0 => none
    | nesting + 1 =>
      match skipBlanks rest with
      | ']' :: rest => some (.arr [], rest)
      | rest =>
        (takeItems (takeValue size nesting) size rest).map fun (items, rest) => (.arr items, rest)
  | '\x7b' :: rest =>
    match nesting with
    | 0 => none
    | nesting + 1 =>
      match skipBlanks rest with
      | '\x7d' :: rest => some (.obj [], rest)
      | rest =>
        (takeFields (takeValue size nesting) size size rest).map fun (fields, rest) =>
          (.obj (Dict.ofList fields), rest)
  | rest => (takeNumber rest).map fun (n, rest) => (.num n, rest)

end Reader

namespace Value

/-- How many containers may stand inside each other. -/
def nestingLimit : Nat := 127

/-- The value that a whole text denotes, with at most `nesting` containers inside
    each other. -/
def ofNestedText? (nesting : Nat) (text : String) : Option Value :=
  let cs := text.toList
  match Reader.takeValue (cs.length + 1) nesting cs with
  | some (v, rest) => if (Reader.skipBlanks rest).isEmpty then some v else none
  | none => none

/-- The value that a whole text denotes. -/
def ofText? (text : String) : Option Value := ofNestedText? nestingLimit text

end Value

end Conform
