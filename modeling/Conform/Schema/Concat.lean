/-
  Conform.Schema.Concat

  Concatenation of schemas: the right schema is laid over the left one. What the
  right one leaves open stays, lists are appended, and fields and elements that
  both have are concatenated in turn.
-/

import Conform.Dependency.Order
import Conform.Schema.Basic

namespace Conform

/-! ## Traits -/

namespace Traits

/-- Whether the last test of the name was exclusive. -/
def isExclusive (t : Traits) (name : Option String) : Bool :=
  match name with
  | some n => Dict.get? t.exclusive n == some true
  | none => false

/-- Whether a new test takes the place of an old one: the names agree, and the
    name is exclusive or the predicate the same. -/
def displaces (exclusive : Bool) (new old : Test) : Bool :=
  old.name == new.name && (exclusive || old.predicate.sameAs new.predicate)

/-- Adds a test behind the others, without those it takes the place of. -/
def addTest (t : Traits) (test : Test) : Traits :=
  let exclusive := test.exclusive || t.isExclusive test.name
  { t with
    exclusive := match test.name with
      | some n => t.exclusive.insert n test.exclusive
      | none => t.exclusive
    tests := (t.tests.filter fun old => !displaces exclusive test old) ++ [test] }

/-- Metadata laid over other metadata: objects are merged field by field. -/
def mergeMetadata (current : Option Value) (incoming : Value) : Value :=
  match current, incoming with
  | some (.obj base), .obj extra => .obj (extra.foldl (fun d e => Dict.insert d e.1 e.2) base)
  | _, v => v

/-- The traits of a concatenation. -/
def join (left right : Traits) : Traits :=
  let merged : Traits :=
    { label := right.label <|> left.label
      metadata := match right.metadata with
        | some v => some (mergeMetadata left.metadata v)
        | none => left.metadata
      fallback := right.fallback <|> left.fallback
      nullable := right.nullable <|> left.nullable
      strip := right.strip <|> left.strip
      options := left.options.merge right.options
      transforms := left.transforms ++ right.transforms
      tests := left.tests
      exclusive := left.exclusive
      typeError := right.typeError
      allow := left.allow.union right.allow
      allowCheck := right.allowCheck <|> left.allowCheck
      deny := left.deny.union right.deny
      denyCheck := right.denyCheck <|> left.denyCheck
      deps := left.deps ++ right.deps }
  right.tests.foldl addTest merged

end Traits

/-! ## Shapes -/

namespace Shape

/-- The nodes that a field depends on: the first steps of its sibling
    references. -/
def dependenciesOf (s : Schema) : List String := s.traits.deps.filterMap Reference.dependency?

/-- The dependencies among fields. -/
def graph (fields : List (String × Schema)) (excluded : List (String × String)) :
    DependencyGraph :=
  .ofFields (fields.map fun field => (field.1, dependenciesOf field.2)) excluded

/-- The shape of these fields, put into order. -/
def sorted (fields : List (String × Schema)) (excluded : List (String × String)) :
    Result (Shape Schema) :=
  match (graph fields excluded).order with
  | .ok order => .ok ⟨fields, order, excluded⟩
  | .error node => .error (.cyclicDependency node)

end Shape

/-! ## Concatenation -/

/-- Whether schemas of two kinds can be concatenated. -/
def KindTag.compatible (left right : KindTag) : Bool :=
  left == .mixed || right == .mixed || left == right

namespace Schema

mutual

/-- The right schema laid over the left one. -/
def concat (left : Schema) : Schema → Result Schema
  | ⟨kind, conditions, traits⟩ =>
    if left.tag.compatible kind.tag then do
      let kind ← concatKind left.kind kind
      return { kind
               conditions := left.conditions ++ conditions
               traits := left.traits.join traits }
    else .error (.kindMismatch left.tag kind.tag)

/-- The kind of a concatenation of compatible schemas. -/
def concatKind (left : Kind Schema) : Kind Schema → Result (Kind Schema)
  | .mixed => .ok left
  | .object ⟨fields, order, excluded⟩ =>
    match left with
    | .object l => do
      let fields ← concatFields l.fields fields
      return .object (← Shape.sorted fields (l.excluded ++ excluded))
    | _ => .ok (.object ⟨fields, order, excluded⟩)
  | .array element =>
    match left with
    | .array l => do return .array (← concatElement l element)
    | _ => .ok (.array element)
  | kind => .ok kind

/-- Element schemas that both sides have are concatenated. -/
def concatElement (left : Element Schema) : Element Schema → Result (Element Schema)
  | .unset => .ok left
  | .disabled => .ok .disabled
  | .of s =>
    match left with
    | .of l => do return .of (← l.concat s)
    | _ => .ok (.of s)

/-- Fields of the right side are laid over those of the left side, one by
    one. -/
def concatFields (left : List (String × Schema)) :
    List (String × Schema) → Result (List (String × Schema))
  | [] => .ok left
  | (key, s) :: rest => do
    let merged ← match left.lookup key with
      | some l => l.concat s
      | none => .ok s
    concatFields (Dict.put left key merged) rest

end

end Schema

end Conform
