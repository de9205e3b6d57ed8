/-
  Conform.Test.Basic

  Tests: a named judgement on a value, with the message and the parameters of
  its failure. Two tests of one name may share their predicate; the built-in
  checks are compared by what they check, other predicates by the place where
  they were made.
-/

import Conform.EntrySet
import Conform.Message
import Conform.Options
import Conform.Policy

namespace Conform

/-! ## What a test sees -/

/-- The parts of a schema that tests and transforms may look at. -/
structure NodeView where
  kind : KindTag
  nullable : Bool
  allow : EntrySet
  deny : EntrySet
  /-- The declared fields of an object schema. -/
  fieldNames : List String

/-- Whether values of a kind look like this, null aside. -/
def KindTag.fits (kind : KindTag) (v : Value) : Bool :=
  match kind with
  | .mixed => true
  | .lazy => true
  | .string => v.type == .string
  | .number => v.type == .number
  | .boolean => v.type == .boolean
  | .object => v.type == .object
  | .array => v.type == .array

/-- Whether a value is of the type of the schema; null is where it is allowed. -/
def NodeView.isType (view : NodeView) (v : Value) : Bool :=
  view.nullable && v.isNull || view.kind.fits v

/-- The value under test, and where it stands. -/
structure Subject where
  value : Option Value
  /-- The input before the cast. -/
  raw : Option Value
  path : Option String
  label : Option String
  node : NodeView
  options : CallOptions

/-- The declaration of a test, without its predicate. -/
structure TestHead where
  name : Option String
  /-- Whether the test replaces every earlier test of its name. -/
  exclusive : Bool
  message : Message
  params : Dict Param

/-- The declaration of the running test and the value it runs on. -/
structure TestContext where
  head : TestHead
  subject : Subject

/-- Changes to the violation that a test reports. -/
structure Overrides where
  path : Option String
  message : Option Message
  kind : Option String
  params : Dict Param

namespace Overrides

def none : Overrides := ⟨.none, .none, .none, []⟩

def ofParams (params : Dict Param) : Overrides := { none with params }

end Overrides

namespace TestContext

def value (ctx : TestContext) : Option Value := ctx.subject.value

def parent (ctx : TestContext) : Option Value := ctx.subject.options.parent

def context (ctx : TestContext) : Option Value := ctx.subject.options.context

/-- The value of a literal or a reference. -/
def resolve (ctx : TestContext) (p : Param) : Option Value := p.resolve ctx.parent ctx.context

/-- The value of a declared parameter. -/
def param (ctx : TestContext) (name : String) : Option Value :=
  (Dict.get? ctx.head.params name).bind ctx.resolve

/-- The value of a declared parameter that is a number. -/
def numberParam (ctx : TestContext) (name : String) : Option Binary64 :=
  (ctx.param name).bind Value.toBinary64?

/-- An entry that is set when there is a value for it. -/
private def setIf (params : Dict Value) (key : String) (value : Option Value) : Dict Value :=
  match value with
  | some v => params.insert key v
  | none => params

/-- Resolves a parameter; an undefined one is taken out. -/
private def setParam (ctx : TestContext) (params : Dict Value) (entry : String × Param) :
    Dict Value :=
  match ctx.resolve entry.2 with
  | some v => params.insert entry.1 v
  | none => params.erase entry.1

/-- The parameters of a violation: what is known of the value, then the declared
    parameters, then those of the overrides. -/
def violationParams (ctx : TestContext) (path : Option String) (overrides : Overrides) :
    Dict Value :=
  let s := ctx.subject
  let base := setIf [] "label" (s.label.map .str)
  let base := setIf base "originalValue" s.raw
  let base := setIf base "path" (path.map .str)
  let base := setIf base "value" s.value
  (ctx.head.params ++ overrides.params).foldl ctx.setParam base

/-- The violation that the test reports. -/
def violation (ctx : TestContext) (overrides : Overrides) : Violation :=
  let path := overrides.path <|> ctx.subject.path
  let message := overrides.message.getD ctx.head.message
  let kind := overrides.kind <|> ctx.head.name
  let (text, params) := message.format (ctx.violationParams path overrides)
  { Violation.leaf text ctx.subject.value path kind with params }

end TestContext

/-! ## Judgements -/

/-- The judgement of a predicate. -/
inductive Outcome where
  | pass
  /-- Fails with the message of the test. -/
  | fail
  /-- Fails with a violation of its own. -/
  | error (v : Violation)
  /-- Is known only after this many more rounds. -/
  | pending (rounds : Nat) (later : Outcome)

namespace Outcome

def ofBool (b : Bool) : Outcome := if b then pass else fail

def isPending : Outcome → Bool
  | pending _ _ => true
  | _ => false

/-- The work of waiting for a judgement. A plain failure reports `fallback`. -/
def settle (fallback : Violation) : Outcome → Job Unit
  | pass => .pure ()
  | fail => .fail (.violation fallback)
  | error v => .fail (.violation v)
  | pending rounds later =>
    let rest := later.settle fallback
    ⟨rounds + rest.rounds, rest.result⟩

end Outcome

/-- The built-in checks. -/
inductive Check where
  | typed
  | allowed
  | notDenied
  | present
  | textNotEmpty
  | itemsNotEmpty
  | textLength
  | textMin
  | textMax
  | itemsMin
  | itemsMax
  | atLeast
  | atMost
  | above
  | below
  | whole
  | email
  | url
  | trimmed
  | lowercase
  | uppercase
  deriving DecidableEq, Repr

/-- The place where a predicate was made. -/
abbrev Mark := List Nat

/-- A built-in check, or a function of its own. A function that was made at no known place
    has no mark, and counts as no other function nor as itself. -/
inductive Predicate where
  | check (c : Check)
  | custom (mark : Option Mark) (judge : TestContext → Outcome)

namespace Predicate

/-- Whether two predicates are one and the same. -/
def sameAs : Predicate → Predicate → Bool
  | check c, check d => c == d
  | custom (some m) _, custom (some n) _ => m == n
  | _, _ => false

end Predicate

/-- A test. -/
structure Test extends TestHead where
  predicate : Predicate

namespace Test

/-- A test without parameters that stacks on others of its name. -/
def named (name : String) (message : Message) (predicate : Predicate) : Test :=
  { name := some name, exclusive := false, message, params := [], predicate }

/-- A test that replaces others of its name. -/
def exclusively (t : Test) : Test := { t with exclusive := true }

/-- The test with a parameter set. -/
def withParam (t : Test) (name : String) (p : Param) : Test :=
  { t with params := t.params.insert name p }

/-- The test with another message. -/
def withMessage (t : Test) (message : Message) : Test := { t with message }

/-- Whether a test has the name. -/
def isNamed (t : Test) (name : String) : Bool := t.name == some name

end Test

end Conform
