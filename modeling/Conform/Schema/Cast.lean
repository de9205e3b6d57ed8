/-
  Conform.Schema.Cast

  Casting: a value is turned into the type of its schema, goes through the
  transforms, and is cast part by part if it is an object or an array. An
  undefined result gives way to the default.
-/

import Conform.Schema.Coerce
import Conform.Schema.Resolve

namespace Conform

/-- The cast of a part with the resolved schema of the part. -/
abbrev CastPart := Schema → Option Value → CallOptions → Result (Option Value)

namespace CallOptions

/-- Whether a cast drops unknown keys. -/
def dropsUnknown (options : CallOptions) (s : Schema) : Bool :=
  (options.stripUnknown <|> s.traits.options.stripUnknown).getD false

/-- The options for a field while the fields before it are cast. -/
def forField (options : CallOptions) (done : Dict Value) (key : String) : CallOptions :=
  { options with
    path := some (Path.joinKey options.path key)
    parent := some (.obj done) }

/-- The options for an item. Its conditions see what those of the array see. -/
def forItem (options : CallOptions) (position : Nat) : CallOptions :=
  { options with path := some (Path.joinIndex options.path position) }

end CallOptions

namespace Workshop

/-! ## Objects and arrays -/

/-- The value of a declared field in the result, behind the fields that are
    done. A strict field is left as it is while its object is validated. -/
def castField (w : Workshop) (castPart : CastPart) (validating : Bool) (options : CallOptions)
    (done : Dict Value) (key : String) (field : Schema) (raw : Option Value) :
    Result (Option Value) := do
  let inner := options.forField done key
  let field ← w.resolve field raw inner
  if field.isStripped then return none
  else if validating && field.isStrict then return raw
  else castPart field raw inner

/-- Adds the value of a key of the order to the fields that are done. -/
def castKey (w : Workshop) (castPart : CastPart) (validating : Bool) (options : CallOptions)
    (fields : List (String × Schema)) (keepUnknown : Bool) (input done : Dict Value)
    (key : String) : Result (Dict Value) := do
  let raw := Dict.get? input key
  let value ← match fields.lookup key with
    | some field => castField w castPart validating options done key field raw
    | none => .ok (if keepUnknown then raw else none)
  return match value with
    | some v => done.insert key v
    | none => done

/-- The fields of an input that the order of a shape does not name. -/
def extraFields (shape : Shape Schema) (input : Dict Value) : Dict Value :=
  input.filter fun field => !shape.order.contains field.1

/-- An object cast field by field, in the order of the shape. Fields that the
    order does not name are taken over as they are, or dropped. -/
def castFields (w : Workshop) (castPart : CastPart) (validating : Bool) (s : Schema)
    (shape : Shape Schema) (input : Dict Value) (options : CallOptions) :
    Result (Option Value) := do
  let keepUnknown := !options.dropsUnknown s
  let out ← shape.order.foldlM
    (castKey w castPart validating options shape.fields keepUnknown input) []
  let extra := if keepUnknown then extraFields shape input else []
  return some (.obj (out.merge extra))

/-- An array cast item by item, from a position on. Undefined results become
    null. -/
def castItems (w : Workshop) (castPart : CastPart) (element : Schema) (options : CallOptions)
    (position : Nat) : List Value → Result (List Value)
  | [] => .ok []
  | item :: rest => do
    let inner := options.forItem position
    let resolved ← w.resolve element (some item) inner
    let v ← castPart resolved (some item) inner
    let others ← castItems w castPart element options (position + 1) rest
    return v.getD .null :: others

/-- The parts of a value cast with the schemas of the parts. -/
def castParts (w : Workshop) (castPart : CastPart) (validating : Bool) (s : Schema) (v : Value)
    (options : CallOptions) : Result (Option Value) :=
  match s.kind, v with
  | .object shape, .obj input => castFields w castPart validating s shape input options
  | .array (.of element), .arr items => do
    return some (.arr (← castItems w castPart element options 0 items))
  | _, v => .ok (some v)

/-! ## Values -/

/-- The value behind coercion and transforms. -/
def prepare (s : Schema) (raw : Value) : Option Value :=
  s.traits.transforms.foldl (fun current f => f current raw s.view) (some (s.coerce raw))

/-- Refuses a result of the wrong type, unless the call turns this off or there
    was no input. -/
def assertType (s : Schema) (raw result : Option Value) (options : CallOptions) :
    Result (Option Value) :=
  if raw.isSome && options.assertType != some false && !s.accepts result then
    .error (.castMismatch (options.path.getD "field") s.tag (printValue raw true)
      (printValue result true))
  else .ok result

/-- The cast of a value with a resolved schema, for its own sake or for the
    validation of the value. -/
def castNode (w : Workshop) (castPart : CastPart) (validating : Bool) : CastPart :=
  fun s raw options => do
    let result ← match raw.bind (prepare s) with
      | none => .ok s.defaultValue
      | some v => castParts w castPart validating s v options
    assertType s raw result options

/-- The cast of a value with a resolved schema, up to a depth of parts. -/
def castWithin (w : Workshop) (depth : Nat) : CastPart :=
  match depth with
  | 0 => fun _ _ _ => .error .tooDeep
  | depth + 1 => castNode w (castWithin w depth) false

/-- The cast of a value with a resolved schema, for its own sake or for the
    validation of the value. -/
def castResolved (w : Workshop) (validating : Bool) : CastPart := fun s raw options =>
  castNode w (w.castWithin (depthLimit + s.height)) validating s raw options

/-- The cast of a value. -/
def cast (w : Workshop) (s : Schema) (value : Option Value) (options : CallOptions) :
    Result (Option Value) := do
  let resolved ← w.resolve s value options
  w.castResolved false resolved value options

end Workshop

end Conform
