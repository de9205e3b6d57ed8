/-
  Conform.Registry

  Named methods of schema kinds. One that is registered for mixed schemas serves every
  kind that has none of that name. What a method is, is left open by the table; the methods
  that recipes call look at the schema and at their arguments.
-/

import Conform.Recipe

namespace Conform

/-- From a schema, of which a part can be seen, and the arguments of a call to what
    becomes of the schema. -/
abbrev Method := NodeView → List Value → Choice Recipe Step

/-- A method with its kind and name. -/
structure MethodEntry (μ : Type) where
  kind : KindTag
  name : String
  method : μ

namespace MethodEntry

variable {μ : Type}

def isFor (e : MethodEntry μ) (kind : KindTag) (name : String) : Bool :=
  e.kind == kind && e.name == name

/-- Entries are listed by kind, and by name within a kind. -/
def precedes (kind : KindTag) (name : String) (e : MethodEntry μ) : Bool :=
  kind.rank < e.kind.rank || kind.rank == e.kind.rank && name < e.name

/-- How an entry is shown. -/
def title (e : MethodEntry μ) : String := e.kind.name ++ "." ++ e.name

end MethodEntry

/-- The methods that are registered, each kind and name once. -/
structure Registry (μ : Type) where
  entries : List (MethodEntry μ)

namespace Registry

variable {μ : Type}

def empty : Registry μ := ⟨[]⟩

/-- Puts an entry in its place, over one of the same kind and name. -/
def place (entry : MethodEntry μ) : List (MethodEntry μ) → List (MethodEntry μ)
  | [] => [entry]
  | e :: rest =>
    if e.isFor entry.kind entry.name then entry :: rest
    else if e.precedes entry.kind entry.name then entry :: e :: rest
    else e :: place entry rest

def insert (r : Registry μ) (entry : MethodEntry μ) : Registry μ := ⟨place entry r.entries⟩

/-- A letter or an underscore. -/
def isNameStart (c : Char) : Bool := c.isAlpha || c = '_'

/-- Whether a text is an identifier: whether the pattern `^[A-Za-z_][A-Za-z0-9_]*$` matches,
    with anchors that stand for the two ends of the text and not for those of a line. -/
def isName (name : String) : Bool :=
  match name.toList with
  | [] => false
  | c :: cs => isNameStart c && cs.all fun c => isNameStart c || c.isDigit

/-- Registers a method: the registry behind the call, and whether the call went through.
    Lazy schemas have no methods, and the name of one is an identifier. -/
def register (r : Registry μ) (kind : KindTag) (name : String) (method : μ) :
    Registry μ × Result Unit :=
  if kind = .lazy then (r, .error .methodForLazy)
  else if isName name then (r.insert ⟨kind, name, method⟩, .ok ())
  else (r, .error (.badMethodName name))

/-- The method of exactly this kind and name. -/
def own? (r : Registry μ) (kind : KindTag) (name : String) : Option μ :=
  (r.entries.find? fun e => e.isFor kind name).map MethodEntry.method

/-- The method that serves a kind: its own, or the one for all kinds. -/
def method? (r : Registry μ) (kind : KindTag) (name : String) : Option μ :=
  r.own? kind name <|> r.own? .mixed name

def has (r : Registry μ) (kind : KindTag) (name : String) : Bool := (r.method? kind name).isSome

/-- A registry with short names for the methods of the allow and the deny list. -/
def aliased (allow deny : μ) : Registry μ :=
  ((((empty.insert ⟨.mixed, "equals", allow⟩).insert ⟨.mixed, "is", allow⟩).insert
    ⟨.mixed, "not", deny⟩).insert ⟨.mixed, "nope", deny⟩)

/-- Literals as entries of a list. -/
private def literals (args : List Value) : List Param := args.map .value

/-- The short names with the methods that recipes call by them. -/
def withAliases : Registry Method :=
  aliased (fun _ args => .refine [.oneOf (literals args)])
    fun _ args => .refine [.notOneOf (literals args)]

end Registry

end Conform
