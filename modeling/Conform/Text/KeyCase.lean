/-
  Conform.Text.KeyCase

  Turning a key into camel case, snake case or constant case. A key is cut
  into words at separators, at changes between small letters, capitals and
  digits, and before the last capital of a run that a small letter follows.
-/

import Conform.Text.Cluster
import Conform.Text.LetterCase

namespace Conform

/-! ## Words -/

/-- What a cluster means for the ends of words. -/
inductive ClusterSort where
  | separator
  | capital
  | small
  | digits
  | other
  deriving DecidableEq, Repr

/-- A cluster is a capital if only its lower case differs from it, and small if
    only its upper case does. -/
def Cluster.sort (g : Cluster) : ClusterSort :=
  if g = ['_'] ∨ g = ['-'] ∨ g = [' '] then .separator
  else if g.all Char.isDigit then .digits
  else
    let upper := upperChars g
    let lower := lowerChars [] g
    if upper = lower then .other
    else if g = upper then .capital
    else if g = lower then .small
    else .other

/-- Whether a word ends behind a cluster of one sort, given the sorts of those
    that follow. -/
def ClusterSort.endsWord : ClusterSort → List ClusterSort → Bool
  | small, capital :: _ => true
  | small, digits :: _ => true
  | capital, digits :: _ => true
  | digits, small :: _ => true
  | digits, capital :: _ => true
  | capital, capital :: small :: _ => true
  | _, _ => false

/-- The words of a list of clusters, behind the part `word` of the first one,
    last character first. Separators are dropped, and words between them may
    be empty. -/
def wordsFrom (word : List Char) : List (Cluster × ClusterSort) → List (List Char)
  | [] => [word.reverse]
  | (g, sort) :: rest =>
    if sort = .separator then word.reverse :: wordsFrom [] rest
    else
      let longer := g.reverse ++ word
      if sort.endsWord ((rest.take 2).map Prod.snd) then longer.reverse :: wordsFrom [] rest
      else wordsFrom longer rest

/-- The words of a key; the empty key has none. -/
def keyWords (key : String) : List (List Char) :=
  if key.isEmpty then []
  else wordsFrom [] ((clusters key.toList).map fun g => (g, g.sort))

/-! ## Cases -/

def lowerWord (word : List Char) : String := String.ofList (lowerChars [] word)

/-- The first character in upper case, the others in lower case as a text of
    their own. -/
def capitalWord : List Char → String
  | [] => ""
  | c :: rest => String.ofList (upperImage c ++ lowerChars [] rest)

def camelCase (key : String) : String :=
  match keyWords key with
  | [] => ""
  | first :: rest => lowerWord first ++ String.join (rest.map capitalWord)

def snakeCase (key : String) : String := "_".intercalate ((keyWords key).map lowerWord)

def constantCase (key : String) : String := upperText (snakeCase key)

/-- The three ways to rename the keys of an object. -/
inductive KeyCase where
  | camel
  | snake
  | constant
  deriving DecidableEq, Repr

def KeyCase.rename : KeyCase → String → String
  | camel => camelCase
  | snake => snakeCase
  | constant => constantCase

end Conform
