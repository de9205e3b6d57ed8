/-
  Conform.Options

  Options of a call, and options stored on a schema that hold where the call
  leaves them open.
-/

import Conform.Value.Basic

namespace Conform

/-- Options of one call. An open option falls back to the schema's own, and
    then to its default. -/
structure CallOptions where
  /-- Take the value as it is, without a cast. -/
  strict : Option Bool
  /-- Stop at the first violation. -/
  abortEarly : Option Bool
  /-- Drop keys of objects that are not among the fields. -/
  stripUnknown : Option Bool
  /-- Descend into fields and elements. -/
  recursive : Option Bool
  /-- Fail when the result of a cast has the wrong type. -/
  assertType : Option Bool
  /-- What context references read. -/
  context : Option Value
  /-- The enclosing value, which sibling references read. -/
  parent : Option Value
  /-- The path of the value. -/
  path : Option String

/-- No option set. -/
def CallOptions.none : CallOptions :=
  { strict := .none, abortEarly := .none, stripUnknown := .none, recursive := .none
    assertType := .none, context := .none, parent := .none, path := .none }

/-- Options stored on a schema. -/
structure NodeOptions where
  strict : Option Bool
  abortEarly : Option Bool
  recursive : Option Bool
  stripUnknown : Option Bool
  deriving DecidableEq, Repr

namespace NodeOptions

def none : NodeOptions := ⟨.none, .none, .none, .none⟩

/-- Options that are set in `newer` replace those stored. -/
def merge (base newer : NodeOptions) : NodeOptions :=
  { strict := newer.strict <|> base.strict
    abortEarly := newer.abortEarly <|> base.abortEarly
    recursive := newer.recursive <|> base.recursive
    stripUnknown := newer.stripUnknown <|> base.stripUnknown }

end NodeOptions

end Conform
