/-
  Conform.Kind

  The kinds of schemas, without what belongs to a particular schema.
-/

namespace Conform

/-- The kind of a schema. -/
inductive KindTag where
  | mixed
  | string
  | number
  | boolean
  | object
  | array
  | lazy
  deriving DecidableEq, Repr

namespace KindTag

def name : KindTag → String
  | mixed => "mixed"
  | string => "string"
  | number => "number"
  | boolean => "boolean"
  | object => "object"
  | array => "array"
  | lazy => "lazy"

/-- The name with a capital. -/
def title : KindTag → String
  | mixed => "Mixed"
  | string => "String"
  | number => "Number"
  | boolean => "Boolean"
  | object => "Object"
  | array => "Array"
  | lazy => "Lazy"

/-- The place of a kind among all kinds. -/
def rank : KindTag → Nat
  | mixed => 0
  | string => 1
  | number => 2
  | boolean => 3
  | object => 4
  | array => 5
  | lazy => 6

def all : List KindTag := [mixed, string, number, boolean, object, array, lazy]

def ofName? (text : String) : Option KindTag := all.find? fun kind => kind.name == text

end KindTag

end Conform
