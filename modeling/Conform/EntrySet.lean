/-
  Conform.EntrySet

  The entries of allow and deny lists: literals, each once up to numeric
  equality, and references, each key once.
-/

import Conform.Reference
import Conform.Value.Equality
import Conform.Value.Writer

namespace Conform

/-- Literals and references. -/
structure EntrySet where
  values : List Value
  refs : List Reference

namespace EntrySet

def empty : EntrySet := ⟨[], []⟩

def isEmpty (set : EntrySet) : Bool := set.values.isEmpty && set.refs.isEmpty

/-- Whether a literal equals one of the set. -/
def hasLiteral (set : EntrySet) (v : Value) : Bool := set.values.any fun x => x.equals v

/-- Adds an entry. A literal that is there stays where it is; a reference
    replaces the one of its key and moves to the end. -/
def add (set : EntrySet) : Param → EntrySet
  | .value v => if set.hasLiteral v then set else { set with values := set.values ++ [v] }
  | .ref r => { set with refs := (set.refs.filter fun x => x.key != r.key) ++ [r] }

/-- Drops the literals equal to an entry, or the references of its key. -/
def remove (set : EntrySet) : Param → EntrySet
  | .value v => { set with values := set.values.filter fun x => !x.equals v }
  | .ref r => { set with refs := set.refs.filter fun x => x.key != r.key }

/-- All entries, the literals first. -/
def entries (set : EntrySet) : List Param := set.values.map .value ++ set.refs.map .ref

/-- Adds every entry of another set. -/
def union (set other : EntrySet) : EntrySet := other.entries.foldl add set

/-- Whether a value is listed: as a literal, or as what a reference resolves
    to. -/
def admits (set : EntrySet) (value : Value) (resolve : Reference → Option Value) : Bool :=
  set.hasLiteral value || set.refs.any fun r => (resolve r).any fun v => v.equals value

/-- The entries as a message lists them. -/
def display (set : EntrySet) : String :=
  ", ".intercalate
    (set.values.map (fun v => printValue (some v) false) ++ set.refs.map Reference.display)

end EntrySet

end Conform
