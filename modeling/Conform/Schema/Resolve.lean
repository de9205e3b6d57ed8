/-
  Conform.Schema.Resolve

  The effective schema for a value: lazy schemas are made, and conditions are
  carried out in the order of their declaration, each on the result of the one
  before.
-/

import Conform.Schema.Build

namespace Conform

/-- The answer to a guard. An undefined value equals no literal. -/
def Guard.ask (guard : Guard) (values : List (Option Value)) : Bool :=
  match guard with
  | .equal expected => values.all fun v => v.any fun v => v.equals expected
  | .holds ask => ask values

namespace Condition

/-- The values that a condition looks at. -/
def values (c : Condition Schema) (parent context : Option Value) : List (Option Value) :=
  c.refs.map fun r => r.value parent context

end Condition

namespace Workshop

/-- A schema changed by a branch. -/
def takeBranch (w : Workshop) (mark : Option Mark) (base : Schema) :
    Option (Branch Schema Recipe Step) → Result Schema
  | none => .ok base
  | some (.join s) => base.concat s
  | some (.map decide) => w.decided mark base (decide base.view)

/-- A schema changed by a rule, for the values that the rule looks at. -/
def takeRule (w : Workshop) (mark : Option Mark) (base : Schema) (values : List (Option Value)) :
    Rule Schema Recipe Step → Result Schema
  | .guarded guard yes no => w.takeBranch mark base (if guard.ask values then yes else no)
  | .resolver choose => w.decided mark base (choose values base.view)

/-- A schema changed by conditions, first to last, counted from `position`. -/
def takeConditions (w : Workshop) (mark : Option Mark) (position : Nat)
    (parent context : Option Value) (base : Schema) :
    List (Condition Schema) → Result Schema
  | [] => .ok base
  | c :: rest => do
    let next ← w.takeRule (part mark position) base (c.values parent context) c.rule
    takeConditions w mark (position + 1) parent context next rest

/-- The effective schema for a value. No condition is left in it; those that come
    with a branch are not carried out. What is made on the way is marked by the evaluation
    and by how much deeper it may still go. -/
def resolveWithin (w : Workshop) (depth : Nat) (s : Schema) (value : Option Value)
    (options : CallOptions) : Result Schema :=
  match depth with
  | 0 => .error .tooDeep
  | depth + 1 =>
    match s.kind with
    | .lazy pick => do
      let made ← w.build (part w.evaluation depth) (← pick value options)
      resolveWithin w depth made value options
    | _ => do
      let resolved ← w.takeConditions (part w.evaluation depth) 0 options.parent
        options.context s.clearConditions s.conditions
      return resolved.clearConditions

def resolve (w : Workshop) (s : Schema) (value : Option Value) (options : CallOptions) :
    Result Schema :=
  w.resolveWithin depthLimit s value options

/-- The default of the effective schema. -/
def getDefault (w : Workshop) (s : Schema) (options : CallOptions) : Result (Option Value) := do
  return (← w.resolve s none options).defaultValue

end Workshop

end Conform
