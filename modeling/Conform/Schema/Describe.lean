/-
  Conform.Schema.Describe

  Summaries of schemas, for display: the kinds, labels, metadata and names of
  tests of a schema and its parts.
-/

import Conform.Schema.Build

namespace Conform

/-- A summary of a schema. -/
structure Description where
  kind : KindTag
  label : Option String
  metadata : Option Value
  /-- The names of the tests, each once. -/
  tests : List String
  /-- The fields of an object schema, in the order of declaration. -/
  fields : Option (List (String × Description))
  /-- The elements of an array schema. -/
  inner : Option Description

/-- The members of a list, each at its first place. -/
def distinct (names : List String) : List String :=
  names.foldl (fun seen name => if seen.contains name then seen else seen ++ [name]) []

namespace Workshop

/-- The summary of a schema. A lazy schema is summed up by what it makes without
    a value, if it makes anything. -/
def describeWithin (w : Workshop) (depth : Nat) (s : Schema) : Description :=
  let describePart (part : Schema) : Description :=
    match depth with
    | 0 => { kind := part.tag, label := none, metadata := none, tests := [], fields := none, inner := none }
    | depth + 1 => describeWithin w depth part
  let own : Description :=
    { kind := s.tag
      label := s.traits.label
      metadata := s.traits.metadata
      tests := distinct (s.traits.tests.filterMap fun test => test.name)
      fields := s.fields?.map fun fields => fields.map fun field => (field.1, describePart field.2)
      inner := s.element?.map describePart }
  match s.kind with
  | .lazy pick =>
    match pick none .none >>= w.build none with
    | .ok made => describePart made
    | .error _ => own
  | _ => own

def describe (w : Workshop) (s : Schema) : Description := w.describeWithin (depthLimit + s.height) s

end Workshop

namespace Description

/-- A field of a document, as text. -/
private def entry (key text : String) : String := quoted key ++ ":" ++ text

private def braces (entries : List String) : String := "\x7b" ++ ",".intercalate entries ++ "\x7d"

mutual

/-- The summary as document text. What is absent is left out, and fields keep the
    order of declaration. -/
def documentText : Description → String
  | ⟨kind, label, metadata, tests, fields, inner⟩ =>
    braces <|
      [entry "type" (quoted kind.name)] ++
      (label.map fun text => entry "label" (quoted text)).toList ++
      (metadata.map fun v => entry "meta" v.compact).toList ++
      [entry "tests" (Value.arr (tests.map .str)).compact] ++
      fieldsEntry fields ++
      innerEntry inner

/-- The entry of the fields, if there are fields. -/
def fieldsEntry : Option (List (String × Description)) → List String
  | none => []
  | some fields => [entry "fields" (braces (fieldTexts fields))]

def fieldTexts : List (String × Description) → List String
  | [] => []
  | (key, d) :: rest => entry key d.documentText :: fieldTexts rest

/-- The entry of the elements, if there is an element schema. -/
def innerEntry : Option Description → List String
  | none => []
  | some d => [entry "innerType" d.documentText]

end

end Description

end Conform
