/-
  Conform.Schema.Show

  Schemas and registries as diagnostics show them.
-/

import Conform.Registry
import Conform.Schema.Basic
import Conform.Text.Shown

namespace Conform

namespace Show

/-- Members of a list in brackets of some kind. -/
def listed (opening closing : String) (members : List String) : String :=
  opening ++ ", ".intercalate members ++ closing

/-- A record with named fields. -/
def record (name : String) (fields : List (String × String)) : String :=
  name ++ " \x7b " ++ ", ".intercalate (fields.map fun f => f.1 ++ ": " ++ f.2) ++ " \x7d"

def flag (b : Bool) : String := if b then "true" else "false"

def optionalText (s : Option String) : String :=
  match s with
  | some s => "Some(" ++ shownText s ++ ")"
  | none => "None"

mutual

def value : Value → String
  | .null => "Null"
  | .bool b => "Bool(" ++ flag b ++ ")"
  | .num n => "Number(" ++ n.documentText ++ ")"
  | .str s => "String(" ++ shownText s ++ ")"
  | .arr items => "Array " ++ listed "[" "]" (values items)
  | .obj fields => "Object " ++ listed "\x7b" "\x7d" (entries fields)

def values : List Value → List String
  | [] => []
  | v :: rest => value v :: values rest

def entries : List (String × Value) → List String
  | [] => []
  | (key, v) :: rest => (shownText key ++ ": " ++ value v) :: entries rest

end

def param : Param → String
  | .value v => "Value(" ++ value v ++ ")"
  | .ref r => "Ref(" ++ r.display ++ ")"

def message : Message → String
  | .template text => shownText text
  | .formatter _ => "<formatter>"

def test (t : Test) : String :=
  record "Test"
    [("name", optionalText t.name),
     ("exclusive", flag t.exclusive),
     ("message", message t.message),
     ("params", listed "\x7b" "\x7d"
       (t.params.map fun e => shownText e.1 ++ ": " ++ param e.2))]

def schema (s : Schema) : String :=
  record "Schema"
    [("kind", s.tag.title),
     ("label", optionalText s.traits.label),
     ("tests", listed "[" "]" (s.traits.tests.map test)),
     ("conditions", toString s.conditions.length)]

/-- The entries of a registry, kind and name joined by a point. -/
def registry {μ : Type} (r : Registry μ) : String :=
  listed "\x7b" "\x7d" (r.entries.map fun e => shownText e.title)

end Show

end Conform
