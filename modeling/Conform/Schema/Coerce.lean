/-
  Conform.Schema.Coerce

  Turning a value into one of the type that a schema asks for. What cannot be
  turned stays as it is and fails the check of its type; in place of an object or
  an array it becomes null.
-/

import Conform.Schema.Basic
import Conform.Value.Reader

namespace Conform

namespace Coerce

/-- Numbers and booleans become their text, arrays and objects their document
    text. -/
def toText : Value → Value
  | .num n => .str (printValue (some (.num n)) false)
  | .bool b => .str (printValue (some (.bool b)) false)
  | .arr items => .str (Value.arr items).compact
  | .obj fields => .str (Value.obj fields).compact
  | v => v

/-- The number that a text denotes when blanks are disregarded. -/
def numberOfText? (text : String) : Option Number :=
  let digits := text.toList.filter fun c => !isBlank c
  match signedInt? digits with
  | some i => some (.int i)
  | none => ((Numeral.ofText? digits).bind Numeral.toBinary64?).map Number.ofComputed

/-- A text becomes the number that it denotes. -/
def toNumber : Value → Value
  | .str s =>
    match numberOfText? s with
    | some n => .num n
    | none => .str s
  | v => v

/-- The truth value of a word, in any case of its ASCII letters. -/
def truthOfText? (text : String) : Option Bool :=
  let word := text.map Char.toLower
  if word == "true" || word == "1" then some true
  else if word == "false" || word == "0" then some false
  else none

/-- The words for truth values and the integers one and zero become booleans. -/
def toBoolean : Value → Value
  | .str s =>
    match truthOfText? s with
    | some b => .bool b
    | none => .str s
  | .num n =>
    match truthOfText? n.documentText with
    | some b => .bool b
    | none => .num n
  | v => v

/-- A text becomes the document that it denotes; what is not of the type of the
    schema then becomes null. -/
def toContainer (view : NodeView) (v : Value) : Value :=
  let v := match v with
    | .str s => (Value.ofText? s).getD .null
    | v => v
  if view.isType v then v else .null

end Coerce

/-- The value turned into one of the type of the schema, if it is not so yet. -/
def Schema.coerce (s : Schema) (v : Value) : Value :=
  if s.isType v then v
  else
    match s.tag with
    | .mixed => v
    | .lazy => v
    | .string => Coerce.toText v
    | .number => Coerce.toNumber v
    | .boolean => Coerce.toBoolean v
    | .object => Coerce.toContainer s.view v
    | .array => Coerce.toContainer s.view v

end Conform
