/-
  Conform.Schema.Build

  Carrying out recipes. The steps of a recipe are taken from first to last; the
  recipes inside a step are built before the step itself is taken, in the order
  in which they are written. What a function of the caller makes of a schema is
  carried out when the function is asked.
-/

import Conform.Registry
import Conform.Schema.Refine

namespace Conform

/-- Calls a method on a schema: that of its own kind, or else the one for all kinds. How a
    method is run is left open. -/
def Registry.apply {μ : Type} (r : Registry μ) (run : μ → Schema → Result Schema) (s : Schema)
    (name : String) : Result Schema :=
  match r.method? s.tag name with
  | some method => run method s
  | none => .error (.unknownMethod name s.tag)

/-- What recipes refer to: the message table, and what is stored by name. -/
structure Workshop where
  locale : Locale
  registry : Registry Method
  schemas : Dict Schema
  tests : Dict Test
  /-- The mark of the evaluation under way, for the predicates that are made in it. -/
  evaluation : Option Mark

namespace Workshop

/-- The state to begin with. -/
def initial : Workshop := ⟨.standard, .empty, [], [], none⟩

/-- Calls a method of the registry on a schema; the mark is the place of the
    call. -/
abbrev Invoke := Schema → String → List Value → Option Mark → Result Schema

/-- The mark of the part at a position. -/
def part (mark : Option Mark) (position : Nat) : Option Mark := mark.map (position :: ·)

/-- A new test at a place. -/
def makeTest (w : Workshop) (mark : Option Mark) (d : TestDraft) : Test :=
  { name := d.name
    exclusive := d.exclusive
    message := d.message.getD (w.locale .invalid)
    params := d.params
    predicate := .custom mark d.judge }

/-- The test that a source stands for. -/
def testOf (w : Workshop) (mark : Option Mark) : TestSource → Result Test
  | .draft d => .ok (w.makeTest mark d)
  | .stored name =>
    match Dict.get? w.tests name with
    | some test => .ok test
    | none => .error (.undefinedName name)

mutual

/-- The schema of a recipe. -/
def buildWith (w : Workshop) (invoke : Invoke) (mark : Option Mark) : Recipe → Result Schema
  | .make base steps => do
    let s ← baseSchema w base
    takeSteps w invoke mark 0 s steps

/-- The schema that a recipe starts from. -/
def baseSchema (w : Workshop) : Base → Result Schema
  | .mixed => .ok (.fresh w.locale .mixed)
  | .string => .ok (.fresh w.locale .string)
  | .number => .ok (.fresh w.locale .number)
  | .boolean => .ok (.fresh w.locale .boolean)
  | .object => .ok (.fresh w.locale (.object .empty))
  | .array => .ok (.fresh w.locale (.array .unset))
  | .lazy pick => .ok (.fresh w.locale (.lazy pick))
  | .named name =>
    match Dict.get? w.schemas name with
    | some s => .ok s
    | none => .error (.undefinedName name)

/-- Takes steps one after the other, counted from `position`. -/
def takeSteps (w : Workshop) (invoke : Invoke) (mark : Option Mark) (position : Nat)
    (s : Schema) : List Step → Result Schema
  | [] => .ok s
  | step :: rest => do
    let s ← takeStep w invoke (part mark position) s step
    takeSteps w invoke mark (position + 1) s rest

/-- Takes one step. -/
def takeStep (w : Workshop) (invoke : Invoke) (mark : Option Mark) (s : Schema) :
    Step → Result Schema
  | .label text => .ok (s.setLabel text)
  | .metadata v => .ok (s.addMetadata v)
  | .fallback v => .ok (s.setFallback v)
  | .nullable on => .ok (s.setNullable on)
  | .strict on => .ok (s.setStrict on)
  | .strip on => .ok (s.setStrip on)
  | .options stored => .ok (s.addOptions stored)
  | .required => .ok (s.required w.locale)
  | .notRequired => .ok s.notRequired
  | .min bound => s.min w.locale bound
  | .max bound => s.max w.locale bound
  | .length size => s.length w.locale size
  | .moreThan bound => s.moreThan w.locale bound
  | .lessThan bound => s.lessThan w.locale bound
  | .positive => s.positive w.locale
  | .negative => s.negative w.locale
  | .integer => s.integer w.locale
  | .truncate => s.truncate
  | .round method => s.round method
  | .ensure => s.ensure
  | .email => s.email w.locale
  | .url => s.url w.locale
  | .trim => s.trim w.locale
  | .lowercase => s.lowercase w.locale
  | .uppercase => s.uppercase w.locale
  | .matching regex excludeEmpty => s.matching w.locale mark regex excludeEmpty
  | .transform f => .ok (s.addTransform f)
  | .test source => do s.test (← w.testOf mark source)
  | .withMessage name message => .ok (s.withMessage name message)
  | .typeError message => .ok (s.setTypeError message)
  | .oneOf entries => .ok (s.oneOf w.locale entries)
  | .notOneOf entries => .ok (s.notOneOf w.locale entries)
  | .when refs rule => do s.when refs (← buildRule w invoke mark rule)
  | .concat other => do s.concat (← buildWith w invoke mark other)
  | .shape fields excluded => do s.shape (← buildFields w invoke mark 0 fields) excluded
  | .noUnknown refuse => s.noUnknown w.locale mark refuse
  | .moveKey source target keepSource => s.moveKey source target keepSource
  | .transformKeys rename => s.transformKeys rename
  | .keyCase style => s.transformKeys style.rename
  | .element r => do s.of (← buildWith w invoke mark r)
  | .withoutElement => s.withoutElement
  | .compact => s.compact
  | .compactWith reject => s.compactWith reject
  | .apply method args => invoke s method args mark

/-- The schemas of fields, in order. -/
def buildFields (w : Workshop) (invoke : Invoke) (mark : Option Mark) (position : Nat) :
    List (String × Recipe) → Result (List (String × Schema))
  | [] => .ok []
  | (key, r) :: rest => do
    let s ← buildWith w invoke (part mark position) r
    let others ← buildFields w invoke mark (position + 1) rest
    return (key, s) :: others

/-- The rule of a condition with the schemas of its branches built. -/
def buildRule (w : Workshop) (invoke : Invoke) (mark : Option Mark) :
    Rule Recipe Recipe Step → Result (Rule Schema Recipe Step)
  | .guarded guard yes no => do
    let yes ← buildBranch w invoke (part mark 0) yes
    let no ← buildBranch w invoke (part mark 1) no
    return .guarded guard yes no
  | .resolver choose => .ok (.resolver choose)

/-- A branch with its schema built. -/
def buildBranch (w : Workshop) (invoke : Invoke) (mark : Option Mark) :
    Option (Branch Recipe Recipe Step) → Result (Option (Branch Schema Recipe Step))
  | none => .ok none
  | some (.join r) => do return some (.join (← buildWith w invoke mark r))
  | some (.map decide) => .ok (some (.map decide))

end

/-- Carries out what a function of the caller has made of a schema. -/
def carryOut (w : Workshop) (invoke : Invoke) (mark : Option Mark) (s : Schema) :
    Choice Recipe Step → Result Schema
  | .fail e => .error e
  | .refine steps => takeSteps w invoke mark 0 s steps
  | .replace r => buildWith w invoke mark r

/-- Calls a method of the registry. Methods may call methods, up to a depth. -/
def invoke (w : Workshop) (depth : Nat) : Invoke := fun s name args mark =>
  match depth with
  | 0 => .error .tooDeep
  | depth + 1 =>
    w.registry.apply (fun method s => w.carryOut (invoke w depth) mark s (method s.view args))
      s name

/-- How deeply methods may call methods. An evaluation may go down by the height
    of its schema and by this much more, for schemas that are made on the way. -/
def depthLimit : Nat := 4096

/-- The schema of a recipe. New predicates are marked by their place in it; they
    are told apart from those of other recipes by the mark of the recipe. -/
def build (w : Workshop) (mark : Option Mark) (r : Recipe) : Result Schema :=
  buildWith w (w.invoke depthLimit) mark r

/-- What a function makes of a schema while a value is examined. -/
def decided (w : Workshop) (mark : Option Mark) (s : Schema) (choice : Choice Recipe Step) :
    Result Schema :=
  w.carryOut (w.invoke depthLimit) mark s choice

end Workshop

end Conform
