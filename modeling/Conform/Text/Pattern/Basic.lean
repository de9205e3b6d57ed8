/-
  Conform.Text.Pattern.Basic

  Regular expressions and the texts in which they occur. A text is read once,
  character by character, while a list holds what is left to match of every
  match that has begun; which of several matches is preferred plays no part.
-/

import Conform.Text.Pattern.CharSet

namespace Conform

/-! ## Anchors -/

/-- Conditions on a place in a text. -/
inductive Anchor where
  | start
  | stop
  | wordEdge
  | noWordEdge
  | wordStart
  | wordStop
  /-- No word character stands before the place. -/
  | freeBefore
  /-- No word character stands behind the place. -/
  | freeBehind
  deriving DecidableEq, Repr

/-- Whether the condition holds between two characters; at an end of the text
    one is missing. -/
def Anchor.holds (anchor : Anchor) (before behind : Option Char) : Bool :=
  let left := before.any isWordChar
  let right := behind.any isWordChar
  match anchor with
  | start => before.isNone
  | stop => behind.isNone
  | wordEdge => left != right
  | noWordEdge => left == right
  | wordStart => !left && right
  | wordStop => left && !right
  | freeBefore => !left
  | freeBehind => !right

/-! ## Patterns -/

inductive Pattern where
  | empty
  | one (set : CharSet)
  | anchor (anchor : Anchor)
  | seq (first second : Pattern)
  | either (first second : Pattern)
  | repeated (least : Nat) (most : Option Nat) (body : Pattern)
  deriving DecidableEq, Repr

namespace Pattern

/-- One pattern behind another. -/
def andThen (first second : Pattern) : Pattern :=
  match first, second with
  | empty, second => second
  | first, empty => first
  | first, second => seq first second

/-- The patterns of a list, one behind the other. -/
def sequence (patterns : List Pattern) : Pattern := patterns.foldr andThen empty

/-- The alternatives of a list; there is at least one in every written form. -/
def choice : List Pattern → Pattern
  | [] => empty
  | [p] => p
  | p :: rest => either p (choice rest)

/-- Whether the empty text matches at a place between two characters. -/
def matchesEmpty (before behind : Option Char) : Pattern → Bool
  | empty => true
  | one _ => false
  | anchor a => a.holds before behind
  | seq first second => first.matchesEmpty before behind && second.matchesEmpty before behind
  | either first second => first.matchesEmpty before behind || second.matchesEmpty before behind
  | repeated least _ body => least == 0 || body.matchesEmpty before behind

/-- What may be left of a repetition once one more round has begun. Rounds
    that match the empty text can make up for all that are required. -/
def afterRound (least : Nat) (most : Option Nat) (body : Pattern) (idle : Bool) : Pattern :=
  repeated (if idle then 0 else least - 1) (most.map (· - 1)) body

/-- What is left to match behind a character, for each way to match it. -/
def after (before : Option Char) (c : Char) : Pattern → List Pattern
  | empty => []
  | one set => if set.has c then [empty] else []
  | anchor _ => []
  | seq first second =>
    let within := (first.after before c).map (·.andThen second)
    if first.matchesEmpty before (some c) then within ++ second.after before c else within
  | either first second => first.after before c ++ second.after before c
  | repeated least most body =>
    if most = some 0 then []
    else
      let next := afterRound least most body (body.matchesEmpty before (some c))
      (body.after before c).map (·.andThen next)

/-- A list with a pattern in it once. -/
def insert (pattern : Pattern) (patterns : List Pattern) : List Pattern :=
  if pattern ∈ patterns then patterns else pattern :: patterns

/-- What is left of all patterns of a list behind a character, each once. -/
def advance (before : Option Char) (c : Char) (live : List Pattern) : List Pattern :=
  live.foldl (fun found p => (p.after before c).foldl (fun found q => insert q found) found) []

/-- Whether one of the begun matches can be finished, or a match begins, at the
    place behind `before` or later. -/
def occursFrom (p : Pattern) (begun : List Pattern) (before : Option Char) : List Char → Bool
  | [] => (insert p begun).any fun q => q.matchesEmpty before none
  | c :: cs =>
    let live := insert p begun
    (live.any fun q => q.matchesEmpty before (some c)) ||
      occursFrom p (advance before c live) (some c) cs

/-- Whether the pattern matches some part of a text. -/
def occursIn (p : Pattern) (text : String) : Bool := p.occursFrom [] none text.toList

end Pattern

/-- A pattern together with the text it was written as. -/
structure Regex where
  source : String
  pattern : Pattern

end Conform
