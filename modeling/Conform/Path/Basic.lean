/-
  Conform.Path.Basic

  Paths into a document: keys behind points, and keys or positions in
  brackets. Reading a path is lenient: blanks around parts are dropped, empty
  parts are skipped, and an open bracket or quote takes the rest of the text.
-/

import Conform.Number.Numeral
import Conform.Text.Blank

namespace Conform

/-- One step of a path. -/
inductive Segment where
  | key (name : String) (quoted : Bool)
  | index (position : Nat)
  deriving DecidableEq, Repr

/-- The step as the key of an object. -/
def Segment.asKey : Segment → String
  | key name _ => name
  | index position => toString position

namespace Path

/-! ## Reading -/

/-- A part without quotes: digits alone name a position, if it is one. -/
def bareSegment (part : List Char) : Segment :=
  match digitsValue? part with
  | some n => if n ≤ greatestIndex then .index n else .key (String.ofList part) false
  | none => .key (String.ofList part) false

/-- The step of a part outside brackets; blank parts have none. -/
def bareStep (part : List Char) : List Segment :=
  match trimChars part with
  | [] => []
  | part => [bareSegment part]

/-- The body of a quoted key: a closing quote of the same kind is dropped. -/
def unquoted (quote : Char) (body : List Char) : List Char :=
  if body.getLast? = some quote then body.dropLast else body

/-- The step of a part inside brackets; blank parts have none. -/
def bracketStep (part : List Char) : List Segment :=
  match trimChars part with
  | [] => []
  | c :: body =>
    if c = '"' ∨ c = '\'' then [.key (String.ofList (unquoted c body)) true]
    else [bareSegment (c :: body)]

/-- Where the reading of a path stands: in a bare part, or in brackets with
    the quote that is open. What is read of the part is held last character
    first. -/
inductive Reading where
  | bare (reversed : List Char)
  | bracket (reversed : List Char) (quote : Option Char)

/-- The quote that is open behind a character. -/
def quoteAfter (quote : Option Char) (c : Char) : Option Char :=
  match quote with
  | some q => if c = q then none else some q
  | none => if c = '"' ∨ c = '\'' then some c else none

/-- The steps of the rest of a path. -/
def stepsFrom : Reading → List Char → List Segment
  | .bare reversed, [] => bareStep reversed.reverse
  | .bracket reversed _, [] => bracketStep reversed.reverse
  | .bare reversed, c :: cs =>
    if c = '.' then bareStep reversed.reverse ++ stepsFrom (.bare []) cs
    else if c = '[' then bareStep reversed.reverse ++ stepsFrom (.bracket [] none) cs
    else stepsFrom (.bare (c :: reversed)) cs
  | .bracket reversed quote, c :: cs =>
    if quote = none ∧ c = ']' then bracketStep reversed.reverse ++ stepsFrom (.bare []) cs
    else stepsFrom (.bracket (c :: reversed) (quoteAfter quote c)) cs

/-- The steps of a path. -/
def parse (path : String) : List Segment := stepsFrom (.bare []) path.toList

/-- The first step of a path as a key. -/
def firstKey? (path : String) : Option String := (parse path).head?.map Segment.asKey

/-! ## Building -/

/-- The path of a field below a path. -/
def joinKey (parent : Option String) (key : String) : String :=
  match parent with
  | some p => if p.isEmpty then key else p ++ "." ++ key
  | none => key

/-- The path of an item below a path. -/
def joinIndex (parent : Option String) (position : Nat) : String :=
  parent.getD "" ++ "[" ++ toString position ++ "]"

end Path

end Conform
