/-
  Conform.Schema.Validate

  Validation. A value is cast unless it is to be taken strictly; then its own
  checks run, first those of type and lists, then the declared tests, and last
  its fields or items are validated, strictly, with the schemas declared for
  them.
-/

import Conform.Schema.Cast

namespace Conform

/-- The validation of a part: its schema as declared, its value, the input that
    the value was cast from, and the options. -/
abbrev ValidatePart :=
  Schema → Option Value → Option Value → CallOptions → Job (Option Value)

/-- What a call decides about a schema. -/
structure Mode where
  strict : Bool
  abortEarly : Bool
  recursive : Bool

/-- The options of the call, then those of the schema, then the defaults. -/
def Mode.of (options : CallOptions) (stored : NodeOptions) : Mode :=
  { strict := (options.strict <|> stored.strict).getD false
    abortEarly := (options.abortEarly <|> stored.abortEarly).getD true
    recursive := (options.recursive <|> stored.recursive).getD true }

/-- A value whose own checks have run, with its parts still to come. -/
structure Visit where
  value : Option Value
  raw : Option Value
  options : CallOptions
  abortEarly : Bool
  /-- The violation of the value's own checks, if it is to be collected. -/
  found : List Violation

namespace Visit

/-- Ends with the value's own violation, if there is one. -/
def finish (visit : Visit) : Job (Option Value) :=
  match visit.found with
  | [] => .pure visit.value
  | v :: _ => .fail (.violation v)

/-- The options for a part of the value. -/
def partOptions (visit : Visit) (parent : Value) (path : String) : CallOptions :=
  { visit.options with
    parent := some parent
    path := some path
    strict := some true }

/-- The policy for the parts of the value. -/
def policy (visit : Visit) (value : Value) (rank : Violation → Nat) : Policy :=
  { abortEarly := visit.abortEarly
    value := some value
    path := visit.options.path
    before := visit.found
    rank }

end Visit

/-! ## The order of violations -/

/-- A path below a prefix and a point, or the path itself. -/
def localPath (base : Option String) (path : String) : String :=
  match base with
  | some p =>
    if p.isEmpty then path
    else
      let head := p.toList ++ ['.']
      if head.isPrefixOf path.toList then String.ofList (path.toList.drop head.length) else path
  | none => path

/-- The place of a violation among the fields: that of the field whose key is the
    path below the object, or else its first step. Other violations come
    last. -/
def fieldRank (keys : List String) (base : Option String) (v : Violation) : Nat :=
  match v.path with
  | none => keys.length
  | some path =>
    let inner := localPath base path
    match keys.idxOf? inner with
    | some i => i
    | none => ((Path.firstKey? inner).bind fun key => keys.idxOf? key).getD keys.length

/-! ## Parts -/

/-- The fields of an object, validated with the object for a parent. -/
def validateFields (validatePart : ValidatePart) (shape : Shape Schema) (visit : Visit)
    (fields : Dict Value) : Job (Option Value) :=
  let object := Value.obj fields
  let raw := match visit.raw with
    | some (.obj o) => o
    | _ => fields
  let jobs := shape.order.filterMap fun key =>
    (shape.fields.lookup key).map fun field =>
      let options := visit.partOptions object (Path.joinKey visit.options.path key)
      (validatePart field (Dict.get? fields key) (Dict.get? raw key) options).discard
  let rank := fieldRank (shape.fields.map Prod.fst) visit.options.path
  Job.bind ((visit.policy object rank).run jobs) fun _ => .pure (some object)

/-- The items of an array, validated with the array for a parent. -/
def validateItems (validatePart : ValidatePart) (element : Schema) (visit : Visit)
    (items : List Value) : Job (Option Value) :=
  let array := Value.arr items
  let raw := (match visit.raw with
    | some (.arr o) => o
    | _ => items).toArray
  let jobs := items.zipIdx.map fun (item, position) =>
    let options := visit.partOptions array (Path.joinIndex visit.options.path position)
    (validatePart element (some item) raw[position]? options).discard
  Job.bind ((visit.policy array fun _ => 0).run jobs) fun _ => .pure (some array)

/-- The parts of a value, if the schema has schemas for them and the call goes
    down to them. -/
def validateParts (validatePart : ValidatePart) (s : Schema) (recursive : Bool) (visit : Visit) :
    Job (Option Value) :=
  if recursive then
    match s.kind, visit.value with
    | .object shape, some (.obj fields) => validateFields validatePart shape visit fields
    | .array (.of element), some (.arr items) => validateItems validatePart element visit items
    | _, _ => visit.finish
  else visit.finish

/-! ## Own checks -/

/-- The checks of type and lists. -/
def Traits.prerequisites (t : Traits) : List Test :=
  [t.typeError] ++ t.allowCheck.toList ++ t.denyCheck.toList

/-- Runs the checks of type and lists, and the declared tests if all of those
    pass. -/
def runOwn (s : Schema) (sync : Bool) (subject : Subject) (abortEarly : Bool) : Job Unit :=
  let policy := Policy.plain abortEarly subject.value subject.options.path
  Job.bind (policy.run (s.traits.prerequisites.map fun test => test.run sync subject)) fun _ =>
    policy.run (s.traits.tests.map fun test => test.run sync subject)

/-- Whether a kind has parts. -/
def KindTag.isComposite (kind : KindTag) : Bool := kind == .object || kind == .array

/-- Carries a violation of the own checks on to the parts of an object or an
    array when all violations are collected; other failures end the
    validation. -/
def collectOwn (own : Job Unit) (collects : Bool) : Job (List Violation) :=
  match own.result with
  | .ok _ => ⟨own.rounds, .ok []⟩
  | .error (.violation v) =>
    if collects then ⟨own.rounds, .ok [v]⟩ else ⟨own.rounds, .error (.violation v)⟩
  | .error e => ⟨own.rounds, .error e⟩

namespace Workshop

/-! ## Values -/

/-- The options of the cast inside a validation: a result of the wrong type is
    left to the check of its type. -/
def castOptions (options : CallOptions) : CallOptions :=
  { options with assertType := some (options.assertType.getD false) }

/-- The input that a value counts as cast from: the one handed down, unless it is
    undefined or null. -/
def rawOf (value raw : Option Value) : Option Value :=
  if isAbsent raw then value else raw

/-- The value that is checked: the input itself, or its cast. -/
def checkedValue (w : Workshop) (s : Schema) (strict : Bool) (value : Option Value)
    (options : CallOptions) : Result (Option Value) :=
  if strict then .ok value
  else w.castResolved (s.tag == .object) s value (castOptions options)

/-- What the tests of a schema see of a value. -/
def subjectOf (s : Schema) (value raw : Option Value) (options : CallOptions) : Subject :=
  { value, raw, path := options.path, label := s.traits.label, node := s.view, options }

/-- Validates a value with a resolved schema. How its parts are validated may
    depend on the value that is checked. -/
def validateNode (w : Workshop) (sync : Bool) (validatePart : Option Value → ValidatePart)
    (s : Schema) (value raw : Option Value) (options : CallOptions) : Job (Option Value) :=
  let raw := rawOf value raw
  let mode := Mode.of options s.traits.options
  Job.bind (.done (w.checkedValue s mode.strict value options)) fun checked =>
    let own := runOwn s sync (subjectOf s checked raw options) mode.abortEarly
    Job.bind (collectOwn own (s.tag.isComposite && !mode.abortEarly)) fun found =>
      validateParts (validatePart checked) s mode.recursive
        { value := checked, raw, options, abortEarly := mode.abortEarly, found }

/-- Validates a part, down to a depth that its height bounds: parts are taken
    strictly, so those of a part lie within the part itself. -/
def validateWithin (w : Workshop) (sync : Bool) (depth : Nat) : ValidatePart :=
  match depth with
  | 0 => fun _ _ _ _ => .fail .tooDeep
  | depth + 1 => fun s value raw options =>
    Job.bind (.done (w.resolve s value options)) fun resolved =>
      validateNode w sync (fun _ => validateWithin w sync depth) resolved value raw options

/-! ## Calls -/

/-- The work of a validation. When it is synchronous, pending tests are
    refused. -/
def validateJob (w : Workshop) (s : Schema) (value : Option Value) (options : CallOptions)
    (sync : Bool) : Job (Option Value) :=
  Job.bind (.done (w.resolve s value options)) fun resolved =>
    validateNode w sync (fun checked => w.validateWithin sync (Value.heightOf checked)) resolved
      value none options

/-- Waits for a validation, however many rounds it takes. -/
def validate (w : Workshop) (s : Schema) (value : Option Value) (options : CallOptions) :
    Result (Option Value) :=
  (w.validateJob s value options false).result

/-- Validates without waiting: a pending test is a failure. -/
def validateSync (w : Workshop) (s : Schema) (value : Option Value) (options : CallOptions) :
    Result (Option Value) :=
  let job := w.validateJob s value options true
  if job.rounds = 0 then job.result else .error (.pendingTest "validate")

/-- Whether a validation succeeded; failures that are no violations stay. -/
def verdict (result : Result (Option Value)) : Result Bool :=
  match result with
  | .ok _ => .ok true
  | .error (.violation _) => .ok false
  | .error e => .error e

end Workshop

end Conform
