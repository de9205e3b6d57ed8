/-
  Conform.Recipe

  Recipes: how a schema is built, as data. A recipe names a base and the steps
  that refine it, with nested recipes in the steps. Lazy schemas, the methods of
  a registry and the branches of conditions give recipes or steps that are
  carried out only when a value is examined.
-/

import Conform.Test.Basic
import Conform.Text.KeyCase
import Conform.Text.Pattern.Basic

namespace Conform

/-! ## Parts of recipes -/

/-- A step of a cast: from the current value, the input of the cast and the
    schema to the next value. -/
abbrev Transform := Option Value → Value → NodeView → Option Value

/-- A test before it is made. Without a message it takes the general one. -/
structure TestDraft where
  name : Option String
  exclusive : Bool
  message : Option Message
  params : Dict Param
  judge : TestContext → Outcome

/-- A new test, or one that is stored under a name. -/
inductive TestSource where
  | draft (d : TestDraft)
  | stored (name : String)

/-- The question that a condition asks of the values it refers to. -/
inductive Guard where
  /-- Whether all of them equal a literal. -/
  | equal (v : Value)
  | holds (ask : List (Option Value) → Bool)

/-- What a function of the caller makes of a schema: it fails, refines the schema by steps of
    type `τ`, or puts what a recipe of type `ρ` makes in its place. -/
inductive Choice (ρ τ : Type) where
  | fail (e : Failure)
  | refine (steps : List τ)
  | replace (r : ρ)

/-- Gives up with a text. -/
def Choice.refuse {ρ τ : Type} (reason : String) : Choice ρ τ := .fail (.rejected reason)

/-- What a branch of a condition does: concatenates a schema of type `σ`, or maps the schema
    as a function decides that may look at it. -/
inductive Branch (σ ρ τ : Type) where
  | join (s : σ)
  | map (decide : NodeView → Choice ρ τ)

/-- Carries out steps. -/
def Branch.refine {σ ρ τ : Type} (steps : List τ) : Branch σ ρ τ := .map fun _ => .refine steps

/-- How a condition changes a schema. The schemas of branches are part of the
    rule; other functions give recipes and steps, which are carried out when they are asked. -/
inductive Rule (σ ρ τ : Type) where
  | guarded (guard : Guard) (yes no : Option (Branch σ ρ τ))
  | resolver (choose : List (Option Value) → NodeView → Choice ρ τ)

/-! ## Recipes -/

mutual

/-- A base and the steps that refine it, first to last. -/
inductive Recipe where
  | make (base : Base) (steps : List Step)

/-- Where a schema starts. -/
inductive Base where
  | mixed
  | string
  | number
  | boolean
  | object
  | array
  /-- A schema that is made anew for each value, from the value and the options
      of the call. -/
  | lazy (pick : Option Value → CallOptions → Except Failure Recipe)
  /-- A schema that is stored under a name. -/
  | named (name : String)

/-- One refinement of a schema. -/
inductive Step where
  | label (text : String)
  | metadata (v : Value)
  /-- Sets the default, or none; a provider of a default counts as the value that it gives. -/
  | fallback (v : Option Value)
  | nullable (on : Bool)
  | strict (on : Bool)
  | strip (on : Bool)
  | options (stored : NodeOptions)
  | required
  | notRequired
  | min (bound : Param)
  | max (bound : Param)
  | length (size : Param)
  | moreThan (bound : Param)
  | lessThan (bound : Param)
  | positive
  | negative
  | integer
  | truncate
  | round (method : String)
  | ensure
  | email
  | url
  | trim
  | lowercase
  | uppercase
  | matching (regex : Regex) (excludeEmpty : Bool)
  | transform (f : Transform)
  | test (source : TestSource)
  | withMessage (name : String) (message : Message)
  | typeError (message : Message)
  | oneOf (entries : List Param)
  | notOneOf (entries : List Param)
  | when (refs : List Reference) (rule : Rule Recipe Recipe Step)
  | concat (other : Recipe)
  | shape (fields : List (String × Recipe)) (excluded : List (String × String))
  | noUnknown (refuse : Bool)
  | moveKey (source target : String) (keepSource : Bool)
  | transformKeys (rename : String → String)
  | keyCase (style : KeyCase)
  | element (r : Recipe)
  | withoutElement
  | compact
  | compactWith (reject : Value → Nat → Bool)
  | apply (method : String) (args : List Value)

end

/-- A recipe without steps. -/
def Recipe.plain (base : Base) : Recipe := .make base []

end Conform
