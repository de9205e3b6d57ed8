/-
  Conform.Reference

  References: a key that is read from the enclosing value, or, with the
  context prefix in front, from the context of the call.
-/

import Conform.Path.Access

namespace Conform

/-- The prefix of context references unless another one is given. -/
def defaultPrefix : String := "$"

/-- A reference to a value that is known only when a value is examined. The
    fields besides the key and the prefix follow from them. -/
structure Reference where
  key : String
  contextPrefix : String
  path : String
  isContext : Bool
  /-- Applied to every value read. -/
  map : Option (Option Value → Option Value)

namespace Reference

/-- A reference by key. Blanks around the key are dropped, and an empty prefix
    stands for the default one. -/
def withPrefix (key contextPrefix : String) : Reference :=
  let key := trimText key
  let contextPrefix := if contextPrefix.isEmpty then defaultPrefix else contextPrefix
  let isContext := contextPrefix.toList.isPrefixOf key.toList
  { key, contextPrefix, isContext
    path := if isContext then String.ofList (key.toList.drop contextPrefix.length) else key
    map := none }

def ofKey (key : String) : Reference := withPrefix key defaultPrefix

/-- Whether the reference is to the enclosing value itself. -/
def isSelf (r : Reference) : Bool := r.key == "."

/-- The steps to the value; the enclosing value itself takes none. -/
def steps (r : Reference) : List Segment := if r.isSelf then [] else Path.parse r.path

/-- The value that is read from: the context, or the enclosing value, for which
    the context and then an empty object may stand in. -/
def source (r : Reference) (parent context : Option Value) : Option Value :=
  if r.isContext then context
  else (parent <|> context) <|> some (.obj [])

/-- The value of a reference. -/
def value (r : Reference) (parent context : Option Value) : Option Value :=
  let raw := (r.source parent context).bind fun v => Path.get? v r.steps
  match r.map with
  | some f => f raw
  | none => raw

/-- References are equal when key and prefix agree. -/
def equals (r s : Reference) : Bool := r.key == s.key && r.contextPrefix == s.contextPrefix

def display (r : Reference) : String := "Ref(" ++ r.key ++ ")"

/-- The node that a sibling reference depends on. -/
def dependency? (r : Reference) : Option String :=
  if r.isContext then none else Path.firstKey? r.path

end Reference

/-- A literal, or a reference that is resolved when a value is examined. -/
inductive Param where
  | value (v : Value)
  | ref (r : Reference)

/-- The value of a parameter. -/
def Param.resolve (p : Param) (parent context : Option Value) : Option Value :=
  match p with
  | value v => some v
  | ref r => r.value parent context

end Conform
