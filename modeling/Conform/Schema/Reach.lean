/-
  Conform.Schema.Reach

  Following a path through a schema and a value side by side. Conditions are
  resolved on the way; a key that is applied to an array steps into its first
  item.
-/

import Conform.Schema.Validate

namespace Conform

/-- The end of a path: the effective schema, the value it applies to, and the
    value that contains it. -/
structure Reached where
  schema : Schema
  parent : Option Value
  value : Option Value

/-- A place on the way, with the steps taken so far as text. -/
structure Walk where
  schema : Schema
  parent : Option Value
  value : Option Value
  walked : String

namespace Workshop

/-- The options that conditions are resolved with on the way. -/
def scope (parent context : Option Value) : CallOptions := { CallOptions.none with parent, context }

/-- The element schema of an effective array schema. -/
def elementOf (path : String) (resolved : Schema) : Result Schema :=
  match resolved.element? with
  | some element => .ok element
  | none => .error (.unreachable (.noElement path resolved.tag))

/-- A step to an item. -/
def stepToItem (w : Workshop) (path : String) (context : Option Value) (place : Walk)
    (position : Nat) : Result Walk := do
  let resolved ← w.resolve place.schema place.value (scope place.parent context)
  let element ← elementOf path resolved
  let walked := place.walked ++ "[" ++ toString position ++ "]"
  match place.value with
  | some (.arr items) =>
    match items[position]? with
    | some item => return ⟨element, some (.arr items), some item, walked⟩
    | none => .error (.unreachable (.noItem position path))
  | _ => return ⟨element, place.parent, none, walked⟩

/-- The effective schema and the value that a key is applied to: those of the
    place, or of its first item if the schema is for arrays. -/
def enterFirst (w : Workshop) (path : String) (context : Option Value) (place : Walk) :
    Result (Schema × Option Value) := do
  let options := scope place.parent context
  let current ← w.resolve place.schema place.value options
  if current.tag = .array then
    let again ← w.resolve current place.value options
    let element ← elementOf path again
    let first := place.value.bind fun v => v.item? 0
    return (← w.resolve element first options, first)
  else return (current, place.value)

/-- The text of a step to a key. -/
def keyText (name : String) (isQuoted : Bool) : String :=
  if isQuoted then "[\"" ++ name ++ "\"]" else "." ++ name

/-- A step to a field. -/
def stepToField (w : Workshop) (path : String) (context : Option Value) (place : Walk)
    (name : String) (isQuoted : Bool) : Result Walk := do
  let (current, container) ← enterFirst w path context place
  match current.fields?.bind fun fields => fields.lookup name with
  | some field =>
    return ⟨field, container, container.bind fun v => v.field? name,
      place.walked ++ keyText name isQuoted⟩
  | none =>
    let reached := if place.walked.isEmpty then "root" else place.walked
    .error (.unreachable (.noField path reached current.tag))

/-- One step of a path. -/
def walk (w : Workshop) (path : String) (context : Option Value) (place : Walk) :
    Segment → Result Walk
  | .index position => stepToItem w path context place position
  | .key name isQuoted => stepToField w path context place name isQuoted

/-- Follows a path. Without a context the value serves as one. -/
def reach (w : Workshop) (s : Schema) (path : String) (value context : Option Value) :
    Result Reached := do
  let context := context <|> value
  let last ← (Path.parse path).foldlM (walk w path context) ⟨s, none, value, ""⟩
  let schema ← w.resolve last.schema last.value (scope last.parent context)
  return ⟨schema, last.parent, last.value⟩

/-- The end of a path and the options for the validation of the value there. -/
def atPath (w : Workshop) (s : Schema) (path : String) (value : Value) (options : CallOptions) :
    Result (Reached × CallOptions) := do
  let reached ← w.reach s path (some value) options.context
  return (reached, { options with path := some path, parent := reached.parent <|> options.parent })

/-- Validates the value at a path with the schema at that path. -/
def validateAt (w : Workshop) (s : Schema) (path : String) (value : Value)
    (options : CallOptions) : Result (Option Value) := do
  let (reached, options) ← w.atPath s path value options
  w.validate reached.schema reached.value options

/-- Validates the value at a path without waiting. -/
def validateSyncAt (w : Workshop) (s : Schema) (path : String) (value : Value)
    (options : CallOptions) : Result (Option Value) := do
  let (reached, options) ← w.atPath s path value options
  w.validateSync reached.schema reached.value options

end Workshop

end Conform
