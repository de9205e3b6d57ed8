/-
  Conform.Text.LetterCase

  Full case conversion of texts. One character may become several, and a
  capital sigma at the end of a word gets its final form.
-/

import Conform.Text.CaseTables

namespace Conform

/-- The expansion of a code point in a table in ascending order. -/
def expansion? (code : Nat) : List (Nat × List Nat) → Option (List Nat)
  | [] => none
  | (first, image) :: rest =>
    if code < first then none else if code = first then some image else expansion? code rest

/-- The image of a character: an expansion if it has one, else its run. -/
def caseImage (expansions : List (Nat × List Nat)) (runs : List CaseRun) (c : Char) : List Char :=
  match expansion? c.toNat expansions with
  | some codes => codes.map Char.ofNat
  | none => [Char.ofNat (CaseRun.map runs c.toNat)]

def upperImage (c : Char) : List Char := caseImage upperExpansions upperRuns c

def lowerImage (c : Char) : List Char := caseImage lowerExpansions lowerRuns c

/-! ## Sigma -/

def capitalSigma : Char := 'Σ'

/-- Whether a cased character comes next, when ignorable ones are skipped. -/
def casedNext (cs : List Char) : Bool :=
  match cs.dropWhile fun c => caseIgnorableRanges.hasChar c with
  | c :: _ => casedRanges.hasChar c
  | [] => false

/-- The lower case of a sigma between the characters before it, nearest first,
    and those after it. -/
def lowerSigma (before after : List Char) : Char :=
  if casedNext before && !casedNext after then 'ς' else 'σ'

/-! ## Texts -/

/-- Lower case of a list, behind the characters `before`, nearest first. -/
def lowerChars (before : List Char) : List Char → List Char
  | [] => []
  | c :: cs =>
    if c = capitalSigma then lowerSigma before cs :: lowerChars (c :: before) cs
    else lowerImage c ++ lowerChars (c :: before) cs

def lowerText (s : String) : String := String.ofList (lowerChars [] s.toList)

def upperChars (cs : List Char) : List Char := cs.flatMap upperImage

def upperText (s : String) : String := String.ofList (upperChars s.toList)

/-! ## Case classes -/

/-- The first character of the class of characters that differ from `code` in
    case only. -/
def foldCode (code : Nat) : Nat := CaseRun.map foldRuns code

/-- The characters that differ from a character in case only, with itself.
    Below the letters of ASCII and between them there are none. -/
def caseMates (c : Char) : List Char :=
  if c.toNat < 128 ∧ !c.isAlpha then [c]
  else
    let first := foldCode c.toNat
    let others := foldRuns.filterMap fun run =>
      let code := ((first : Int) - run.shift).toNat
      if run.has code && run.move code == first then some (Char.ofNat code) else none
    Char.ofNat first :: others

end Conform
