/-
  Conform.Schema.Basic

  Schemas: what kind of value is expected, the conditions that refine the
  schema once a value is at hand, and the traits that all kinds share.
-/

import Conform.Locale
import Conform.Recipe

namespace Conform

/-! ## Parts of schemas -/

/-- The fields of an object schema. -/
structure Shape (σ : Type) where
  /-- In the order of their declaration. -/
  fields : List (String × σ)
  /-- In the order in which they are worked on, with the names of dependencies
      that are no fields. -/
  order : List String
  /-- Pairs of a field and a dependency that the order disregards. -/
  excluded : List (String × String)

def Shape.empty {σ : Type} : Shape σ := ⟨[], [], []⟩

/-- The schema of the elements of an array. -/
inductive Element (σ : Type) where
  | unset
  /-- Taken away on purpose. -/
  | disabled
  | of (s : σ)

/-- The schema of the elements, if there is one. -/
def Element.schema? {σ : Type} : Element σ → Option σ
  | of s => some s
  | _ => none

/-- The kind of a schema with what belongs to it. -/
inductive Kind (σ : Type) where
  | mixed
  | string
  | number
  | boolean
  | object (shape : Shape σ)
  | array (element : Element σ)
  | lazy (pick : Option Value → CallOptions → Result Recipe)

def Kind.tag {σ : Type} : Kind σ → KindTag
  | mixed => .mixed
  | string => .string
  | number => .number
  | boolean => .boolean
  | object _ => .object
  | array _ => .array
  | lazy _ => .lazy

/-- A rule and the references whose values it looks at. -/
structure Condition (σ : Type) where
  refs : List Reference
  rule : Rule σ Recipe Step

/-- What schemas of all kinds have. -/
structure Traits where
  label : Option String
  metadata : Option Value
  /-- The value for undefined results. `some none` declares that there is none. A default
      that is computed counts as the value that it comes to. -/
  fallback : Option (Option Value)
  nullable : Option Bool
  strip : Option Bool
  options : NodeOptions
  transforms : List Transform
  tests : List Test
  /-- For each name of a test, whether the last one added was exclusive. -/
  exclusive : Dict Bool
  typeError : Test
  allow : EntrySet
  /-- The check of the allow list, once there is one. -/
  allowCheck : Option Test
  deny : EntrySet
  /-- The check of the deny list, once there is one. -/
  denyCheck : Option Test
  /-- The sibling references of all conditions, also of those resolved. -/
  deps : List Reference

/-- A schema. -/
structure Schema where
  kind : Kind Schema
  conditions : List (Condition Schema)
  traits : Traits

/-! ## Access -/

namespace Schema

def tag (s : Schema) : KindTag := s.kind.tag

def isStripped (s : Schema) : Bool := s.traits.strip == some true

def isStrict (s : Schema) : Bool := s.traits.options.strict == some true

/-- The fields of an object schema, in the order of declaration. -/
def fields? (s : Schema) : Option (List (String × Schema)) :=
  match s.kind with
  | .object shape => some shape.fields
  | _ => none

/-- The schema of the elements of an array schema. -/
def element? (s : Schema) : Option Schema :=
  match s.kind with
  | .array element => element.schema?
  | _ => none

/-- What tests and transforms may see of the schema. -/
def view (s : Schema) : NodeView :=
  { kind := s.tag
    nullable := s.traits.nullable == some true
    allow := s.traits.allow
    deny := s.traits.deny
    fieldNames := (s.fields?.getD []).map Prod.fst }

/-- Whether a value is of the type of the schema. -/
def isType (s : Schema) (v : Value) : Bool := s.view.isType v

/-- Whether a result of a cast is of the type of the schema. Only mixed schemas
    accept an undefined one. -/
def accepts (s : Schema) : Option Value → Bool
  | some v => s.isType v
  | none => s.tag == .mixed

def mapTraits (s : Schema) (f : Traits → Traits) : Schema := { s with traits := f s.traits }

def setKind (s : Schema) (kind : Kind Schema) : Schema := { s with kind }

def clearConditions (s : Schema) : Schema := { s with conditions := [] }

/-- A schema of a kind with no traits set. -/
def fresh (locale : Locale) (kind : Kind Schema) : Schema :=
  { kind
    conditions := []
    traits :=
      { label := none, metadata := none, fallback := none, nullable := none, strip := none
        options := .none, transforms := [], tests := [], exclusive := []
        typeError := .named "typeError" (locale .notType) (.check .typed)
        allow := .empty, allowCheck := none, deny := .empty, denyCheck := none, deps := [] } }

/-! ## Defaults -/

mutual

/-- The value for undefined results. An object schema with fields has the object
    of their defaults unless one is declared. -/
def defaultValue : Schema → Option Value
  | ⟨kind, _, traits⟩ =>
    match traits.fallback with
    | some v => v
    | none => kindDefault kind

/-- The default that a kind has by itself. -/
def kindDefault : Kind Schema → Option Value
  | .object ⟨fields, order, _⟩ =>
    if fields.isEmpty then none
    else
      let defaults := fieldDefaults fields
      some (.obj (order.foldl (fun out key =>
        match defaults.lookup key with
        | some (some v) => Dict.insert out key v
        | _ => out) []))
  | _ => none

/-- The defaults of fields, in the order of declaration. -/
def fieldDefaults : List (String × Schema) → List (String × Option Value)
  | [] => []
  | (key, s) :: rest => (key, s.defaultValue) :: fieldDefaults rest

end

/-! ## Height -/

mutual

/-- How deeply schemas are nested in a schema, as fields, as elements and in the
    branches of conditions. -/
def height : Schema → Nat
  | ⟨kind, conditions, _⟩ => 1 + max (kindHeight kind) (conditionsHeight conditions)

def kindHeight : Kind Schema → Nat
  | .object ⟨fields, _, _⟩ => fieldsHeight fields
  | .array (.of s) => s.height
  | _ => 0

def fieldsHeight : List (String × Schema) → Nat
  | [] => 0
  | (_, s) :: rest => max s.height (fieldsHeight rest)

def conditionsHeight : List (Condition Schema) → Nat
  | [] => 0
  | ⟨_, rule⟩ :: rest => max (ruleHeight rule) (conditionsHeight rest)

def ruleHeight : Rule Schema Recipe Step → Nat
  | .guarded _ yes no => max (branchHeight yes) (branchHeight no)
  | .resolver _ => 0

def branchHeight : Option (Branch Schema Recipe Step) → Nat
  | some (.join s) => s.height
  | _ => 0

end

end Schema

end Conform
