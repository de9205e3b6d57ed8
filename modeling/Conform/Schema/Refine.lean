/-
  Conform.Schema.Refine

  The refinements of schemas. Each gives a new schema; those that not every kind
  has fail with the name of the method and the kind. Checks take their messages
  from the table at hand.
-/

import Conform.Schema.Concat
import Conform.Test.Checks
import Conform.Transform

namespace Conform

/-- Whether a rule changes nothing whatever the values are. -/
def Rule.isVoid {σ ρ τ : Type} : Rule σ ρ τ → Bool
  | .guarded _ none none => true
  | _ => false

/-! ## Traits -/

namespace Traits

/-- Takes out every test called `required`. -/
def dropRequired (t : Traits) : Traits :=
  { t with tests := t.tests.filter fun test => !test.isNamed "required" }

/-- Gives a message to a test if it has the name. -/
def reword (name : String) (message : Message) (test : Test) : Test :=
  if test.isNamed name then test.withMessage message else test

/-- Gives a message to every test of a name, the checks of type and lists
    included. -/
def withMessage (t : Traits) (name : String) (message : Message) : Traits :=
  { t with
    tests := t.tests.map (reword name message)
    typeError := reword name message t.typeError
    allowCheck := t.allowCheck.map (reword name message)
    denyCheck := t.denyCheck.map (reword name message) }

/-- Allows entries, which thereby leave the deny list. -/
def allowing (t : Traits) (message : Message) (entries : List Param) : Traits :=
  { t with
    allow := entries.foldl EntrySet.add t.allow
    deny := entries.foldl EntrySet.remove t.deny
    allowCheck := t.allowCheck <|> some (.named "oneOf" message (.check .allowed)) }

/-- Denies entries, which thereby leave the allow list. -/
def denying (t : Traits) (message : Message) (entries : List Param) : Traits :=
  { t with
    deny := entries.foldl EntrySet.add t.deny
    allow := entries.foldl EntrySet.remove t.allow
    denyCheck := t.denyCheck <|> some (.named "notOneOf" message (.check .notDenied)) }

end Traits

namespace Schema

/-- The failure of a method that the kind of the schema does not have. -/
def unsupported {α : Type} (s : Schema) (method : String) : Result α :=
  .error (.unknownMethod method s.tag)

/-- Goes on only for schemas of a kind. -/
def requireKind (s : Schema) (kind : KindTag) (method : String) : Result Schema :=
  if s.tag = kind then .ok s else s.unsupported method

def addTest (s : Schema) (test : Test) : Schema := s.mapTraits fun t => t.addTest test

def addTransform (s : Schema) (f : Transform) : Schema :=
  s.mapTraits fun t => { t with transforms := t.transforms ++ [f] }

/-! ## All kinds -/

def setLabel (s : Schema) (label : String) : Schema := s.mapTraits fun t => { t with label }

/-- Lays metadata over the metadata there is. -/
def addMetadata (s : Schema) (v : Value) : Schema :=
  s.mapTraits fun t => { t with metadata := some (Traits.mergeMetadata t.metadata v) }

def setFallback (s : Schema) (v : Option Value) : Schema :=
  s.mapTraits fun t => { t with fallback := some v }

def setNullable (s : Schema) (on : Bool) : Schema :=
  s.mapTraits fun t => { t with nullable := some on }

def setStrip (s : Schema) (on : Bool) : Schema := s.mapTraits fun t => { t with strip := some on }

def addOptions (s : Schema) (options : NodeOptions) : Schema :=
  s.mapTraits fun t => { t with options := t.options.merge options }

def setStrict (s : Schema) (on : Bool) : Schema := s.addOptions { NodeOptions.none with strict := some on }

/-- Refuses undefined and null. Texts and arrays must not be empty either. -/
def required (s : Schema) (locale : Locale) : Schema :=
  let test (check : Check) : Test := .named "required" (locale .required) (.check check)
  let s := s.addTest (test .present)
  match s.tag with
  | .string => s.addTest (test .textNotEmpty)
  | .array => s.addTest (test .itemsNotEmpty)
  | _ => s

def notRequired (s : Schema) : Schema := s.mapTraits Traits.dropRequired

/-- Adds a test of the caller's own. -/
def test (s : Schema) (test : Test) : Result Schema :=
  if test.exclusive && test.name.isNone then .error .exclusiveWithoutName
  else .ok (s.addTest test)

def withMessage (s : Schema) (name : String) (message : Message) : Schema :=
  s.mapTraits fun t => t.withMessage name message

def setTypeError (s : Schema) (message : Message) : Schema :=
  s.mapTraits fun t => { t with typeError := t.typeError.withMessage message }

def oneOf (s : Schema) (locale : Locale) (entries : List Param) : Schema :=
  s.mapTraits fun t => t.allowing (locale .oneOf) entries

def notOneOf (s : Schema) (locale : Locale) (entries : List Param) : Schema :=
  s.mapTraits fun t => t.denying (locale .notOneOf) entries

/-- Records a condition, and a dependency for each of its sibling references. -/
def when (s : Schema) (refs : List Reference) (rule : Rule Schema Recipe Step) : Result Schema :=
  if rule.isVoid then .error .conditionWithoutBranch
  else
    let s := s.mapTraits fun t => { t with deps := t.deps ++ refs.filter fun r => !r.isContext }
    .ok { s with conditions := s.conditions ++ [⟨refs, rule⟩] }

/-! ## Bounds -/

/-- A check that replaces others of its name, with one parameter. -/
def bounded (s : Schema) (name : String) (message : Message) (check : Check) (param : String)
    (bound : Param) : Schema :=
  s.addTest (((Test.named name message (.check check)).withParam param bound).exclusively)

/-- At least so many characters or items, or a number at least so large. -/
def min (s : Schema) (locale : Locale) (bound : Param) : Result Schema :=
  match s.tag with
  | .string => .ok (s.bounded "min" (locale .textMin) .textMin "min" bound)
  | .number => .ok (s.bounded "min" (locale .numberMin) .atLeast "min" bound)
  | .array => .ok (s.bounded "min" (locale .itemsMin) .itemsMin "min" bound)
  | _ => s.unsupported "min"

/-- At most so many characters or items, or a number at most so large. -/
def max (s : Schema) (locale : Locale) (bound : Param) : Result Schema :=
  match s.tag with
  | .string => .ok (s.bounded "max" (locale .textMax) .textMax "max" bound)
  | .number => .ok (s.bounded "max" (locale .numberMax) .atMost "max" bound)
  | .array => .ok (s.bounded "max" (locale .itemsMax) .itemsMax "max" bound)
  | _ => s.unsupported "max"

/-- Replaces undefined and null values by an empty text or array. -/
def ensure (s : Schema) : Result Schema :=
  match s.tag with
  | .string => .ok ((s.setFallback (some (.str ""))).addTransform Transform.nullToText)
  | .array => .ok ((s.setFallback (some (.arr []))).addTransform Transform.toArray)
  | _ => s.unsupported "ensure"

/-! ## Texts -/

def length (s : Schema) (locale : Locale) (size : Param) : Result Schema := do
  let s ← s.requireKind .string "length"
  return s.bounded "length" (locale .textLength) .textLength "length" size

/-- The judgement of a pattern on texts. -/
def matchOutcome (regex : Regex) (excludeEmpty : Bool) (ctx : TestContext) : Outcome :=
  .ofBool (ctx.onText fun text =>
    text.isEmpty && excludeEmpty || regex.pattern.occursIn text)

/-- The pattern must occur in the text. -/
def matching (s : Schema) (locale : Locale) (mark : Option Mark) (regex : Regex)
    (excludeEmpty : Bool) : Result Schema := do
  let s ← s.requireKind .string "matches"
  let test := Test.named "matches" (locale .textMatches)
    (.custom mark (matchOutcome regex excludeEmpty))
  return s.addTest (test.withParam "regex" (.value (.str regex.source)))

def email (s : Schema) (locale : Locale) : Result Schema := do
  let s ← s.requireKind .string "email"
  return s.addTest (.named "email" (locale .email) (.check .email))

def url (s : Schema) (locale : Locale) : Result Schema := do
  let s ← s.requireKind .string "url"
  return s.addTest (.named "url" (locale .url) (.check .url))

/-- Drops blanks at the ends during the cast; untrimmed texts fail without it. -/
def trim (s : Schema) (locale : Locale) : Result Schema := do
  let s ← s.requireKind .string "trim"
  return (s.addTransform (Transform.text trimText)).addTest
    (.named "trim" (locale .trim) (.check .trimmed))

def lowercase (s : Schema) (locale : Locale) : Result Schema := do
  let s ← s.requireKind .string "lowercase"
  return (s.addTransform (Transform.text lowerText)).addTest
    (Test.named "string_case" (locale .lowercase) (.check .lowercase)).exclusively

def uppercase (s : Schema) (locale : Locale) : Result Schema := do
  let s ← s.requireKind .string "uppercase"
  return (s.addTransform (Transform.text upperText)).addTest
    (Test.named "string_case" (locale .uppercase) (.check .uppercase)).exclusively

/-! ## Numbers -/

/-- Strictly greater; takes the place of the lower bound. -/
def moreThan (s : Schema) (locale : Locale) (bound : Param) : Result Schema := do
  let s ← s.requireKind .number "moreThan"
  return s.bounded "min" (locale .moreThan) .above "more" bound

/-- Strictly less; takes the place of the upper bound. -/
def lessThan (s : Schema) (locale : Locale) (bound : Param) : Result Schema := do
  let s ← s.requireKind .number "lessThan"
  return s.bounded "max" (locale .lessThan) .below "less" bound

def positive (s : Schema) (locale : Locale) : Result Schema := do
  let s ← s.requireKind .number "positive"
  return s.bounded "min" (locale .positive) .above "more" (.value (.int 0))

def negative (s : Schema) (locale : Locale) : Result Schema := do
  let s ← s.requireKind .number "negative"
  return s.bounded "max" (locale .negative) .below "less" (.value (.int 0))

def integer (s : Schema) (locale : Locale) : Result Schema := do
  let s ← s.requireKind .number "integer"
  return s.addTest (.named "integer" (locale .integer) (.check .whole))

def truncate (s : Schema) : Result Schema := do
  let s ← s.requireKind .number "truncate"
  return s.addTransform (Transform.float Binary64.truncate)

/-- The rounding of a name in any case. -/
def roundingOf? : String → Option (Binary64 → Binary64)
  | "trunc" => some Binary64.truncate
  | "ceil" => some Binary64.ceil
  | "floor" => some Binary64.floor
  | "round" => some Binary64.roundHalfUp
  | _ => none

def round (s : Schema) (method : String) : Result Schema := do
  let s ← s.requireKind .number "round"
  let method := lowerText method
  match roundingOf? method with
  | some f => return s.addTransform (Transform.float f)
  | none => .error (.unknownRounding method)

/-! ## Objects -/

/-- Adds fields, or replaces those of the same key, and excludes edges from the
    order of the fields. -/
def shape (s : Schema) (fields : List (String × Schema)) (excluded : List (String × String)) :
    Result Schema :=
  match s.kind with
  | .object old => do
    let merged := fields.foldl (fun d field => Dict.put d field.1 field.2) old.fields
    return s.setKind (.object (← Shape.sorted merged (old.excluded ++ excluded)))
  | _ => s.unsupported "shape"

/-- The keys of an object that are no fields of its schema. -/
def unknownKeys (view : NodeView) (v : Value) : List String :=
  match view.kind, v with
  | .object, .obj fields => (Dict.keys fields).filter fun key => !view.fieldNames.contains key
  | _, _ => []

/-- The judgement on unknown keys. -/
def noUnknownOutcome (refuse : Bool) (ctx : TestContext) : Outcome :=
  .ofBool (match ctx.value with
    | some v => !refuse || (unknownKeys ctx.subject.node v).isEmpty
    | none => true)

/-- Refuses keys that are no fields. This drops them from casts too. -/
def noUnknown (s : Schema) (locale : Locale) (mark : Option Mark) (refuse : Bool) :
    Result Schema := do
  let s ← s.requireKind .object "noUnknown"
  let test := Test.named "noUnknown" (locale .noUnknown) (.custom mark (noUnknownOutcome refuse))
  let s := s.addTest test.exclusively
  return if refuse then s.addOptions { NodeOptions.none with stripUnknown := some true } else s

def moveKey (s : Schema) (source target : String) (keepSource : Bool) : Result Schema := do
  let s ← s.requireKind .object "from"
  return s.addTransform (Transform.moveKey source target keepSource)

def transformKeys (s : Schema) (rename : String → String) : Result Schema := do
  let s ← s.requireKind .object "transformKeys"
  return s.addTransform (Transform.keys rename)

/-! ## Arrays -/

/-- Sets the schema of the elements. -/
def of (s : Schema) (element : Schema) : Result Schema := do
  let s ← s.requireKind .array "of"
  return s.setKind (.array (.of element))

def withoutElement (s : Schema) : Result Schema := do
  let s ← s.requireKind .array "of"
  return s.setKind (.array .disabled)

/-- Drops elements that are null, false, zero or an empty text. -/
def compact (s : Schema) : Result Schema := do
  let s ← s.requireKind .array "compact"
  return s.addTransform (Transform.keepItems fun item _ => Transform.isTruthy item)

/-- Drops elements that are rejected. -/
def compactWith (s : Schema) (reject : Value → Nat → Bool) : Result Schema := do
  let s ← s.requireKind .array "compact"
  return s.addTransform (Transform.keepItems fun item position => !reject item position)

end Schema

end Conform
