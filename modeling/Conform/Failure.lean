/-
  Conform.Failure

  What can go wrong. A violation says how a value fails its schema, with the
  violations inside it; a failure is a violation, or a mistake in how schemas
  are built or used.
-/

import Conform.Kind
import Conform.Value.Basic

namespace Conform

/-! ## Violations -/

/-- A value that fails its schema. -/
structure Violation where
  message : String
  /-- The value that failed, or the enclosing one once it is reported. -/
  value : Option Value
  path : Option String
  /-- The name of the check; collected violations have none. -/
  kind : Option String
  /-- The messages of all leaves, in order. -/
  errors : List String
  /-- The leaves, in order; a leaf has none. -/
  inner : List Violation
  /-- The parameters that the message was made from. -/
  params : Dict Value

namespace Violation

/-- A violation with one message. -/
def leaf (message : String) (value : Option Value) (path kind : Option String) : Violation :=
  { message, value, path, kind, errors := [message], inner := [], params := [] }

/-- What a violation contributes to a collection: its leaves, or itself. -/
def leaves (v : Violation) : List Violation := if v.inner.isEmpty then [v] else v.inner

/-- The message of a collection of messages. -/
def summary : List String → String
  | [] => ""
  | [message] => message
  | messages => toString messages.length ++ " errors occurred"

/-- Several violations collected into one. -/
def collect (violations : List Violation) (value : Option Value) (path : Option String) :
    Violation :=
  let errors := violations.flatMap Violation.errors
  { message := summary errors
    value, path
    kind := none
    errors
    inner := violations.flatMap leaves
    params := [] }

end Violation

/-! ## Failures -/

/-- Why a path leads nowhere. -/
inductive PathFault where
  /-- A step of `path` would read a key of an absent value. -/
  | absentValue (key path : String)
  /-- An item is asked of a schema that has no element schema. -/
  | noElement (path : String) (kind : KindTag)
  /-- The value has no item at the position. -/
  | noItem (position : Nat) (path : String)
  /-- The schema reached so far has no such field. -/
  | noField (path reached : String) (kind : KindTag)

/-- Why schema building, casting or validation fails. -/
inductive Failure where
  /-- Two schemas of different kinds are concatenated. -/
  | kindMismatch (left right : KindTag)
  /-- Fields of an object depend on each other. -/
  | cyclicDependency (node : String)
  /-- An exclusive test has no name. -/
  | exclusiveWithoutName
  /-- A condition has no branch. -/
  | conditionWithoutBranch
  /-- A resolver or a lazy schema gives up with a text of its own. -/
  | rejected (reason : String)
  | unknownRounding (method : String)
  /-- The result of a cast is not of the type of its schema. -/
  | castMismatch (path : String) (kind : KindTag) (value result : String)
  /-- A test has no answer yet during synchronous validation. -/
  | pendingTest (name : String)
  /-- Methods cannot be registered for lazy schemas. -/
  | methodForLazy
  | badMethodName (name : String)
  | unknownMethod (name : String) (kind : KindTag)
  | unreachable (fault : PathFault)
  | violation (v : Violation)
  /-- A name under which no schema or test is stored. -/
  | undefinedName (name : String)
  /-- The evaluation is nested more deeply than allowed. -/
  | tooDeep

namespace PathFault

def message : PathFault → String
  | absentValue key path => "cannot read '" ++ key ++ "' of an absent value in path '" ++ path ++ "'"
  | noElement path kind =>
    "the schema does not contain the path: " ++ path ++ " (array of type \"" ++ kind.name ++
      "\" has no element schema)"
  | noItem position path =>
    "cannot resolve an array item at index: " ++ toString position ++ ", in the path: " ++ path ++
      ", because there is no value at that index"
  | noField path reached kind =>
    "the schema does not contain the path: " ++ path ++ " (failed at: " ++ reached ++
      " which is a type: \"" ++ kind.name ++ "\")"

end PathFault

namespace Failure

def message : Failure → String
  | kindMismatch left right =>
    "type mismatch: cannot concat schemas of different types: " ++ left.name ++ " and " ++ right.name
  | cyclicDependency node => "cyclic dependency, node was: \"" ++ node ++ "\""
  | exclusiveWithoutName =>
    "invalid test: exclusive tests must provide a unique `name` identifying the test"
  | conditionWithoutBranch =>
    "invalid condition: either `then` or `otherwise` is required for `when()` conditions"
  | rejected reason => "invalid condition: " ++ reason
  | unknownRounding method =>
    "invalid round method '" ++ method ++ "'; expected one of: ceil, floor, round, trunc"
  | castMismatch path kind value result =>
    "the value of " ++ path ++ " could not be cast to a value that satisfies the schema type: \"" ++
      kind.name ++ "\" (attempted value: " ++ value ++ ", result of cast: " ++ result ++ ")"
  | pendingTest name =>
    "validation test of type \"" ++ name ++
      "\" returned a pending result during a synchronous validate"
  | methodForLazy =>
    "invalid method registration: lazy schemas cannot carry methods; register on the kind they resolve to"
  | badMethodName name =>
    "invalid method registration: method name '" ++ name ++ "' must be a non-empty identifier"
  | unknownMethod name kind =>
    "unknown method '" ++ name ++ "' for schema type '" ++ kind.name ++ "'"
  | unreachable fault => "unreachable path: " ++ fault.message
  | violation v => v.message
  | undefinedName name => "nothing is stored under the name '" ++ name ++ "'"
  | tooDeep => "the evaluation is nested too deeply"

end Failure

/-! ## Results -/

/-- A result, or why there is none. -/
abbrev Result (α : Type) := Except Failure α

/-- A sequence succeeds exactly if its steps do. -/
theorem bind_eq_ok {ε α β : Type} {r : Except ε α} {f : α → Except ε β} {b : β} :
    (r >>= f) = .ok b ↔ ∃ a, r = .ok a ∧ f a = .ok b := by
  cases r with
  | error e =>
      constructor
      · intro h
        exact absurd h (by simp [bind, Except.bind])
      · rintro ⟨a, ha, -⟩
        exact absurd ha (by simp)
  | ok a =>
      constructor
      · intro h
        exact ⟨a, rfl, h⟩
      · rintro ⟨a', ha, hf⟩
        cases ha
        exact hf

/-- A sequence fails as the first of its steps that does. -/
theorem bind_eq_error {ε α β : Type} {r : Except ε α} {f : α → Except ε β} {e : ε} :
    (r >>= f) = .error e ↔ r = .error e ∨ ∃ a, r = .ok a ∧ f a = .error e := by
  cases r with
  | error e' => simp [bind, Except.bind]
  | ok a => simp [bind, Except.bind]

/-- Two sequences agree under maps of their results if their steps do. -/
theorem bind_map_congr {ε α β γ δ : Type} {f : α → γ} {g : β → δ} {r : Except ε α}
    {r' : Except ε γ} {next : α → Except ε β} {next' : γ → Except ε δ} (hr : r.map f = r')
    (hnext : ∀ a, (next a).map g = next' (f a)) : (r >>= next).map g = r' >>= next' := by
  subst hr
  cases r with
  | error e => rfl
  | ok a => exact hnext a

/-- A sequence behind a mapped step. -/
theorem map_bind_congr {ε α β γ : Type} {f : α → γ} {r : Except ε α} {next : α → Except ε β}
    {next' : γ → Except ε β} (hnext : ∀ a, next' (f a) = next a) :
    r.map f >>= next' = r >>= next := by
  cases r with
  | error e => rfl
  | ok a => exact hnext a

namespace Result

variable {α : Type}

/-- Whether a result is a failure that is no violation. -/
def IsMistake (r : Result α) : Prop := ∃ e, r = .error e ∧ ∀ v, e ≠ .violation v

theorem not_isMistake_ok (a : α) : ¬ IsMistake (.ok a : Result α) := by
  rintro ⟨e, he, -⟩
  exact absurd he (by simp)

theorem not_isMistake_violation (v : Violation) :
    ¬ IsMistake (.error (.violation v) : Result α) := by
  rintro ⟨e, he, hv⟩
  cases he
  exact hv v rfl

end Result

end Conform
