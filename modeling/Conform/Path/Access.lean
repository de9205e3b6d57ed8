/-
  Conform.Path.Access

  Reading the value at a path. Safe access treats a missing step as an
  undefined result; unsafe access fails where it would have to step through
  an absent value.
-/

import Conform.Path.Basic
import Conform.Value.Basic

namespace Conform

/-- One step into a value. An array takes a position, also when it is written
    as a key. -/
def Segment.step (value : Value) (segment : Segment) : Option Value :=
  match value, segment with
  | .obj fields, s => Dict.get? fields s.asKey
  | .arr items, .index i => items[i]?
  | .arr items, .key name _ => (position? name.toList).bind fun i => items[i]?
  | _, _ => none

/-- The outcome of reading a path: the value or nothing, or the step at which
    an absent value stood in the way. -/
inductive Access where
  | found (value : Option Value)
  | blocked (segment : Segment)

namespace Path

/-- Follows steps through a value. Only the last step may give null. -/
def follow (safe : Bool) (value : Value) : List Segment → Access
  | [] => .found (some value)
  | [s] => .found (s.step value)
  | s :: t :: rest =>
    match s.step value with
    | some next =>
      if next.isNull then (if safe then .found none else .blocked s)
      else follow safe next (t :: rest)
    | none => if safe then .found none else .blocked s

/-- The value at the end of steps, or nothing. -/
def get? (value : Value) (steps : List Segment) : Option Value :=
  match follow true value steps with
  | .found v => v
  | .blocked _ => none

end Path

end Conform
