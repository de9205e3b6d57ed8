/-
  Conform.Value.Basic

  Document values: null, booleans, numbers, text, arrays and objects. An
  undefined value is the absence of a value, `none` of `Option Value`, and is
  no value itself.
-/

import Conform.Dict
import Conform.Number.Basic

namespace Conform

/-- A document value. The fields of an object are kept in key order. -/
inductive Value where
  | null
  | bool (b : Bool)
  | num (n : Number)
  | str (s : String)
  | arr (items : List Value)
  | obj (fields : List (String × Value))

/-- The six types of document values. -/
inductive ValueType where
  | null
  | boolean
  | number
  | string
  | object
  | array
  deriving DecidableEq, Repr

def ValueType.name : ValueType → String
  | null => "null"
  | boolean => "boolean"
  | number => "number"
  | string => "string"
  | object => "object"
  | array => "array"

namespace Value

instance : Inhabited Value := ⟨null⟩

def type : Value → ValueType
  | null => .null
  | bool _ => .boolean
  | num _ => .number
  | str _ => .string
  | arr _ => .array
  | obj _ => .object

def isNull : Value → Bool
  | null => true
  | _ => false

/-- The number as a binary64, for a number. -/
def toBinary64? : Value → Option Binary64
  | num n => some n.toBinary64
  | _ => none

/-- The field of an object; other values have no fields. -/
def field? : Value → String → Option Value
  | obj fields, key => Dict.get? fields key
  | _, _ => none

/-- The item of an array; other values have no items. -/
def item? : Value → Nat → Option Value
  | arr items, i => items[i]?
  | _, _ => none

def int (i : Int) : Value := num (.int i)

/-! ## Height -/

mutual

/-- How deeply items and fields are nested in a value. -/
def height : Value → Nat
  | arr items => 1 + itemsHeight items
  | obj fields => 1 + fieldsHeight fields
  | _ => 0

def itemsHeight : List Value → Nat
  | [] => 0
  | v :: rest => max v.height (itemsHeight rest)

def fieldsHeight : List (String × Value) → Nat
  | [] => 0
  | (_, v) :: rest => max v.height (fieldsHeight rest)

end

/-- The height of a value that may be undefined. Every part of a value is lower
    than the value, an undefined part too. -/
def heightOf : Option Value → Nat
  | none => 0
  | some v => 1 + v.height

end Value

/-- Whether a value is undefined or null. -/
def isAbsent : Option Value → Bool
  | none => true
  | some v => v.isNull

end Conform
