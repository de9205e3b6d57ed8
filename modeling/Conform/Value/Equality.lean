/-
  Conform.Value.Equality

  Two equalities of document values. `equals` compares numbers by their
  binary64 value, so 1 equals 1.0; `same` keeps integers and floats apart.
-/

import Conform.Value.Basic

namespace Conform

namespace Value

/-! ## Numeric equality -/

mutual

/-- Structural equality in which numbers compare by numeric value. -/
def equals : Value → Value → Bool
  | null, null => true
  | bool a, bool b => a == b
  | num m, num n => m.equals n
  | str s, str t => s == t
  | arr xs, arr ys => itemsEqual xs ys
  | obj xs, obj ys => xs.length == ys.length && fieldsEqual xs ys
  | _, _ => false

/-- Arrays are equal item by item. -/
def itemsEqual : List Value → List Value → Bool
  | [], [] => true
  | x :: xs, y :: ys => x.equals y && itemsEqual xs ys
  | _, _ => false

/-- Every field on the left has an equal field of the same key on the right. -/
def fieldsEqual : List (String × Value) → List (String × Value) → Bool
  | [], _ => true
  | (key, x) :: xs, ys =>
    (match Dict.get? ys key with
      | some y => x.equals y
      | none => false) && fieldsEqual xs ys

end

/-! ## Strict equality -/

mutual

/-- Structural equality in which an integer never equals a float. -/
def same : Value → Value → Bool
  | null, null => true
  | bool a, bool b => a == b
  | num m, num n => m.same n
  | str s, str t => s == t
  | arr xs, arr ys => sameItems xs ys
  | obj xs, obj ys => sameFields xs ys
  | _, _ => false

def sameItems : List Value → List Value → Bool
  | [], [] => true
  | x :: xs, y :: ys => x.same y && sameItems xs ys
  | _, _ => false

def sameFields : List (String × Value) → List (String × Value) → Bool
  | [], [] => true
  | (j, x) :: xs, (k, y) :: ys => j == k && x.same y && sameFields xs ys
  | _, _ => false

end

end Value

end Conform
