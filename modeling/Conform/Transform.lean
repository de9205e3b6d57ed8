/-
  Conform.Transform

  The transforms behind the refinements of schemas. Each changes the values it
  is meant for and leaves all others as they are.
-/

import Conform.Path.Access
import Conform.Recipe

namespace Conform

namespace Transform

/-- A transform of texts. -/
def text (f : String → String) : Transform := fun current _ _ =>
  match current with
  | some (.str s) => some (.str (f s))
  | v => v

/-- A transform of floats; the result is an integer when it is whole. -/
def float (f : Binary64 → Binary64) : Transform := fun current _ _ =>
  match current with
  | some (.num (.float x)) => some (.num (.ofComputed (f x)))
  | v => v

/-- Null becomes the empty text. -/
def nullToText : Transform := fun current _ _ =>
  match current with
  | some .null => some (.str "")
  | v => v

/-- Null becomes the empty array, and other values that are not of the type of
    the schema become its only item. -/
def toArray : Transform := fun current _ view =>
  match current with
  | none => none
  | some v =>
    if view.isType v then some v
    else if v.isNull then some (.arr [])
    else some (.arr [v])

/-- The items of an array that a test of item and position keeps. -/
def keepItems (keep : Value → Nat → Bool) : Transform := fun current _ _ =>
  match current with
  | some (.arr items) => some (.arr ((items.zipIdx.filter fun e => keep e.1 e.2).map Prod.fst))
  | v => v

/-- Whether an item survives compaction: it is not null, false, zero or the
    empty text. -/
def isTruthy : Value → Bool
  | .null => false
  | .bool b => b
  | .num n => !n.toBinary64.equals .zero
  | .str s => !s.isEmpty
  | _ => true

/-- Puts the value at the path `source` under the key `target`. Unless the
    source is kept, the key that reads like the path is taken out. -/
def moveKey (source target : String) (keepSource : Bool) : Transform := fun current _ _ =>
  match current with
  | some (.obj fields) =>
    match Path.get? (.obj fields) (Path.parse source) with
    | some moved =>
      let fields := if keepSource then fields else Dict.erase fields source
      some (.obj (Dict.insert fields target moved))
    | none => some (.obj fields)
  | v => v

/-- Renames the keys of an object; of keys that become one the last counts. -/
def keys (rename : String → String) : Transform := fun current _ _ =>
  match current with
  | some (.obj fields) => some (.obj (Dict.ofList (fields.map fun e => (rename e.1, e.2))))
  | v => v

end Transform

end Conform
