/-
  Conform.Text.Pattern.Reader

  Reading the written form of a pattern: literals, classes with the operations
  on sets, anchors, groups, alternatives, repetition (eager or lazy) and the
  flag for blindness to case.
-/

import Conform.Number.Numeral
import Conform.Text.Pattern.Basic

namespace Conform

namespace PatternReader

/-! ## Escapes -/

/-- What a backslash and the characters behind it stand for. -/
inductive Escape where
  | char (c : Char)
  | set (set : CharSet)
  | anchor (anchor : Anchor)

/-- The value of hexadecimal digits, when there is at least one and they name
    a character. -/
def hexChar? (digits : List Char) : Option Char :=
  if digits.isEmpty then none
  else do
    let code ← digits.foldlM (fun code c => (hexValue? c).map fun v => code * 16 + v) 0
    if code.isValidChar then some (Char.ofNat code) else none
where
  hexValue? (c : Char) : Option Nat :=
    if c.isDigit then some (c.toNat - '0'.toNat)
    else if 'a' ≤ c ∧ c ≤ 'f' then some (c.toNat - 'a'.toNat + 10)
    else if 'A' ≤ c ∧ c ≤ 'F' then some (c.toNat - 'A'.toNat + 10)
    else none

/-- A character by its code point: `count` digits, or any number in braces. -/
def codeEscape? (count : Nat) : List Char → Option (Escape × List Char)
  | '\x7b' :: cs =>
    match cs.dropWhile (· ≠ '\x7d') with
    | _ :: rest => (hexChar? (cs.takeWhile (· ≠ '\x7d'))).map fun c => (.char c, rest)
    | [] => none
  | cs =>
    let digits := cs.take count
    if digits.length < count then none
    else (hexChar? digits).map fun c => (.char c, cs.drop count)

/-- The word anchor of a name in braces. -/
def namedEdge? (name : List Char) : Option Anchor :=
  match String.ofList name with
  | "start" => some .wordStart
  | "end" => some .wordStop
  | "start-half" => some .freeBefore
  | "end-half" => some .freeBehind
  | _ => none

/-- A word edge, possibly of a kind named in braces. Braces that hold no name
    belong to a repetition. -/
def wordEdge? (cs : List Char) : Option (Escape × List Char) :=
  match cs with
  | '\x7b' :: inner =>
    let isNameChar (c : Char) : Bool := c.isAlpha || c == '-'
    let name := inner.takeWhile isNameChar
    if name.isEmpty then some (.anchor .wordEdge, cs)
    else match inner.dropWhile isNameChar with
      | '\x7d' :: rest => (namedEdge? name).map fun anchor => (.anchor anchor, rest)
      | _ => none
  | cs => some (.anchor .wordEdge, cs)

/-- What an escape stands for, read behind the backslash. Every sign of ASCII
    stands for itself, angle brackets apart; a letter or digit needs a meaning
    of its own. -/
def escape? : List Char → Option (Escape × List Char)
  | [] => none
  | c :: rest =>
    match CharSet.ofLetter? c with
    | some set => some (.set set, rest)
    | none =>
      match c with
      | 'n' => some (.char '\n', rest)
      | 't' => some (.char '\t', rest)
      | 'r' => some (.char '\r', rest)
      | 'f' => some (.char '\x0c', rest)
      | 'v' => some (.char '\x0b', rest)
      | 'a' => some (.char '\x07', rest)
      | 'x' => codeEscape? 2 rest
      | 'u' => codeEscape? 4 rest
      | 'U' => codeEscape? 8 rest
      | 'b' => wordEdge? rest
      | 'B' => some (.anchor .noWordEdge, rest)
      | 'A' => some (.anchor .start, rest)
      | 'z' => some (.anchor .stop, rest)
      | '<' => some (.anchor .wordStart, rest)
      | '>' => some (.anchor .wordStop, rest)
      | c => if c.isAlphanum || 128 ≤ c.toNat then none else some (.char c, rest)

/-! ## Classes -/

/-- One entry of a class. -/
def classItem? : List Char → Option (Escape × List Char)
  | [] => none
  | '\\' :: rest => escape? rest
  | c :: rest => some (.char c, rest)

/-- An entry with the range that it may begin. A hyphen makes a range unless a
    closing bracket or another hyphen follows it. -/
def classRange? (cs : List Char) : Option (CharSet × List Char) := do
  let (item, rest) ← classItem? cs
  let bare ← match item with
    | .char c => some (CharSet.single c)
    | .set set => some set
    | .anchor _ => none
  match rest with
  | '-' :: ']' :: _ => some (bare, rest)
  | '-' :: '-' :: _ => some (bare, rest)
  | '-' :: rest =>
    match item, (← classItem? rest) with
    | .char first, (.char last, rest) =>
      if last < first then none else some (.range first last, rest)
    | _, _ => none
  | rest => some (bare, rest)

/-- A named class behind its opening bracket, if that is what stands there. -/
def namedClass? (anyCase : Bool) : List Char → Option (CharSet × List Char)
  | ':' :: cs =>
    let (negated, cs) := match cs with
      | '^' :: rest => (true, rest)
      | rest => (false, rest)
    match cs.dropWhile (· ≠ ':') with
    | ':' :: ']' :: rest =>
      (CharSet.ofName? (String.ofList (cs.takeWhile (· ≠ ':')))).map fun set =>
        ((set.foldedIf anyCase).negatedIf negated, rest)
    | _ => none
  | _ => none

/-- The front of a class behind its opening bracket: whether it is negated, and
    the hyphens or the closing bracket that stand for themselves there. -/
def classFront (cs : List Char) : Bool × CharSet × List Char :=
  let (negated, cs) := match cs with
    | '^' :: rest => (true, rest)
    | rest => (false, rest)
  let rest := cs.dropWhile (· == '-')
  match cs, rest with
  | '-' :: _, rest => (negated, .single '-', rest)
  | _, ']' :: rest => (negated, .single ']', rest)
  | _, rest => (negated, .empty, rest)

/-- An operation with its left side; the right side is still to come. -/
structure HalfOp where
  op : SetOp
  left : CharSet

/-- The whole of an operation whose right side is complete. -/
def HalfOp.close (anyCase : Bool) (half : Option HalfOp) (right : CharSet) : CharSet :=
  match half with
  | none => right
  | some half => .join half.op (half.left.foldedIf anyCase) (right.foldedIf anyCase)

/-- The rest of a class up to its closing bracket, behind a pending operation
    and the union of the entries after it. Entries bind closer than operations,
    and those are read from left to right. -/
def classBody? (fuel : Nat) (anyCase : Bool) (half : Option HalfOp) (items : CharSet)
    (cs : List Char) : Option (CharSet × List Char) :=
  match fuel with
  | 0 => none
  | fuel + 1 =>
    let operator (op : SetOp) (rest : List Char) : Option (CharSet × List Char) :=
      classBody? fuel anyCase (some ⟨op, HalfOp.close anyCase half items⟩) .empty rest
    match cs with
    | ']' :: rest => some (HalfOp.close anyCase half items, rest)
    | '&' :: '&' :: rest => operator .intersection rest
    | '-' :: '-' :: rest => operator .difference rest
    | '~' :: '~' :: rest => operator .symmetricDifference rest
    | '[' :: rest =>
      match namedClass? anyCase rest with
      | some (set, rest) => classBody? fuel anyCase half (items.add set) rest
      | none =>
        let (negated, front, rest) := classFront rest
        match classBody? fuel anyCase none front rest with
        | some (set, rest) =>
          classBody? fuel anyCase half (items.add ((set.foldedIf anyCase).negatedIf negated)) rest
        | none => none
    | cs =>
      match classRange? cs with
      | some (set, rest) => classBody? fuel anyCase half (items.add set) rest
      | none => none

/-- A class behind its opening bracket. -/
def class? (fuel : Nat) (anyCase : Bool) (cs : List Char) : Option (CharSet × List Char) :=
  let (negated, front, rest) := classFront cs
  (classBody? fuel anyCase none front rest).map fun (set, rest) =>
    ((set.foldedIf anyCase).negatedIf negated, rest)

/-! ## Repetition -/

/-- A number with blanks around it. -/
def count? (cs : List Char) : Option (Nat × List Char) :=
  let cs := cs.dropWhile isBlank
  (digitsValue? (cs.takeWhile Char.isDigit)).map fun n =>
    (n, (cs.dropWhile Char.isDigit).dropWhile isBlank)

/-- The bounds in braces, behind the opening brace. -/
def bounds? (cs : List Char) : Option (Nat × Option Nat × List Char) :=
  match count? cs with
  | some (least, '\x7d' :: rest) => some (least, some least, rest)
  | some (least, ',' :: '\x7d' :: rest) => some (least, none, rest)
  | some (least, ',' :: rest) =>
    match count? rest with
    | some (most, '\x7d' :: rest) => if most < least then none else some (least, some most, rest)
    | _ => none
  | _ => none

/-- The repetition at the front, if there is one. `none` is a malformed one. -/
def repetition? (cs : List Char) : Option (Option (Nat × Option Nat) × List Char) :=
  match cs with
  | '*' :: rest => some (some (0, none), rest)
  | '+' :: rest => some (some (1, none), rest)
  | '?' :: rest => some (some (0, some 1), rest)
  | '\x7b' :: rest => (bounds? rest).map fun (least, most, rest) => (some (least, most), rest)
  | rest => some (none, rest)

/-- An atom with all repetitions that follow it. -/
def repeatAtom (fuel : Nat) (p : Pattern) (cs : List Char) : Option (Pattern × List Char) :=
  match fuel with
  | 0 => none
  | fuel + 1 =>
    match repetition? cs with
    | none => none
    | some (none, rest) => some (p, rest)
    | some (some (least, most), rest) =>
      let rest := match rest with
        | '?' :: rest => rest
        | rest => rest
      repeatAtom fuel (.repeated least most p) rest

/-! ## Groups -/

/-- The opening of a group, behind its parenthesis. -/
inductive Opening where
  | group (anyCase : Bool) (rest : List Char)
  | flags (anyCase : Bool) (rest : List Char)

def opening? (anyCase : Bool) : List Char → Option Opening
  | '?' :: ':' :: rest => some (.group anyCase rest)
  | '?' :: 'i' :: ':' :: rest => some (.group true rest)
  | '?' :: 'i' :: ')' :: rest => some (.flags true rest)
  | '?' :: '-' :: 'i' :: ':' :: rest => some (.group false rest)
  | '?' :: '-' :: 'i' :: ')' :: rest => some (.flags false rest)
  | '?' :: 'P' :: '<' :: rest => some (.group anyCase ((rest.dropWhile (· ≠ '>')).drop 1))
  | '?' :: '<' :: rest => some (.group anyCase ((rest.dropWhile (· ≠ '>')).drop 1))
  | '?' :: _ => none
  | rest => some (.group anyCase rest)

/-- The point: any character but a line feed. -/
def anyChar : Pattern := .one (.complement (.single '\n'))

/-- An escape outside a class. -/
def escapeAtom (anyCase : Bool) : Escape → Pattern
  | .char c => .one (.literal anyCase c)
  | .set set => .one set
  | .anchor anchor => .anchor anchor

/-- The alternatives of a group up to its end, which is left unread. `before`
    holds the alternatives that are complete, last first, and `current` the
    atoms of the one being read, last first. -/
def alternatives (fuel : Nat) (anyCase : Bool) (before : List Pattern) (current : List Pattern)
    (cs : List Char) : Option (Pattern × List Char) :=
  match fuel with
  | 0 => none
  | fuel + 1 =>
    let complete := Pattern.sequence current.reverse :: before
    let continueWith (p : Pattern) (rest : List Char) : Option (Pattern × List Char) := do
      let (p, rest) ← repeatAtom fuel p rest
      alternatives fuel anyCase before (p :: current) rest
    match cs with
    | [] => some (Pattern.choice complete.reverse, [])
    | ')' :: rest => some (Pattern.choice complete.reverse, ')' :: rest)
    | '|' :: rest => alternatives fuel anyCase complete [] rest
    | '(' :: rest =>
      match opening? anyCase rest with
      | none => none
      | some (.flags anyCase rest) => alternatives fuel anyCase before current rest
      | some (.group inner rest) =>
        match alternatives fuel inner [] [] rest with
        | some (p, ')' :: rest) => continueWith p rest
        | _ => none
    | '[' :: rest => do
      let (set, rest) ← class? fuel anyCase rest
      continueWith (.one set) rest
    | '\\' :: rest => do
      let (escape, rest) ← escape? rest
      continueWith (escapeAtom anyCase escape) rest
    | '.' :: rest => continueWith anyChar rest
    | '^' :: rest => continueWith (.anchor .start) rest
    | '$' :: rest => continueWith (.anchor .stop) rest
    | '*' :: _ => none
    | '+' :: _ => none
    | '?' :: _ => none
    | '\x7b' :: _ => none
    | c :: rest => continueWith (.one (.literal anyCase c)) rest

end PatternReader

/-- The pattern that a text denotes. -/
def Pattern.ofText? (source : String) : Option Pattern :=
  let cs := source.toList
  match PatternReader.alternatives (2 * cs.length + 2) false [] [] cs with
  | some (p, []) => some p
  | _ => none

def Regex.ofText? (source : String) : Option Regex :=
  (Pattern.ofText? source).map fun pattern => ⟨source, pattern⟩

end Conform
