/-
  Conform.Text.Cluster

  The division of a text into clusters. A cluster is what a reader takes for
  one character: a base with its marks, a syllable made of letters, a pair of
  regional indicators, or pictographs that are joined.
-/

import Conform.Text.ClusterTables

namespace Conform

/-- A character with what attaches to it. -/
abbrev Cluster := List Char

/-! ## Classes of characters -/

/-- The part that a character takes in the division into clusters. -/
inductive ClusterClass where
  | carriageReturn
  | lineFeed
  | control
  | extending
  | joiner
  | spacing
  | leading
  | regional
  | pictograph
  | consonant
  /-- A syllable's first letter. -/
  | onset
  /-- A syllable's vowel. -/
  | vowel
  /-- A syllable's last letter. -/
  | coda
  /-- A written syllable without a last letter. -/
  | openSyllable
  /-- A written syllable with a last letter. -/
  | closedSyllable
  | other
  deriving DecidableEq, Repr

/-- First letters of syllables. -/
def onsetRanges : CharRanges := [(0x1100, 0x115F), (0xA960, 0xA97C)]

/-- Vowels of syllables. -/
def vowelRanges : CharRanges :=
  [(0x1160, 0x11A7), (0xD7B0, 0xD7C6), (0x16D63, 0x16D63), (0x16D67, 0x16D6A)]

/-- Last letters of syllables. -/
def codaRanges : CharRanges := [(0x11A8, 0x11FF), (0xD7CB, 0xD7FB)]

/-- Modifiers of the tone of a pictograph. -/
def toneModifierRanges : CharRanges := [(0x1F3FB, 0x1F3FF)]

def regionalRanges : CharRanges := [(0x1F1E6, 0x1F1FF)]

/-- The written syllables stand in one block, in groups of 28 of which the
    first has no last letter. -/
def syllableClass (code : Nat) : ClusterClass :=
  if (code - 0xAC00) % 28 = 0 then .openSyllable else .closedSyllable

/-- The class of a character behind the plain ones of ASCII. -/
def wideClusterClass (code : Nat) : ClusterClass :=
  if code = 0x200D then .joiner
  else if clusterControlRanges.has code then .control
  else if 0xAC00 ≤ code ∧ code ≤ 0xD7A3 then syllableClass code
  else if onsetRanges.has code then .onset
  else if vowelRanges.has code then .vowel
  else if codaRanges.has code then .coda
  else if extendingRanges.has code || toneModifierRanges.has code then .extending
  else if spacingMarkRanges.has code then .spacing
  else if leadingMarkRanges.has code then .leading
  else if regionalRanges.has code then .regional
  else if pictographRanges.has code then .pictograph
  else if linkedConsonantRanges.has code then .consonant
  else .other

def clusterClass (c : Char) : ClusterClass :=
  if c = '\r' then .carriageReturn
  else if c = '\n' then .lineFeed
  else if ' ' ≤ c && c ≤ '~' then .other
  else wideClusterClass c.toNat

/-! ## Boundaries -/

/-- What the characters up to a place say about the next one. -/
structure ClusterTrail where
  /-- The class of the last character. -/
  last : ClusterClass
  /-- A pictograph stands here, with nothing behind it but extending
      characters and, at the very end, one joiner. -/
  pictograph : Bool
  /-- An odd number of regional indicators stands here. -/
  halfPair : Bool
  /-- A consonant stands here, with nothing behind it but extending
      characters and joiners. -/
  consonant : Bool
  /-- There is a linker among those behind the consonant. -/
  linked : Bool

namespace ClusterTrail

/-- The trail behind a character of a class, whatever stands before it. -/
def behind (last : ClusterClass) : ClusterTrail :=
  { last
    pictograph := last == .pictograph
    halfPair := last == .regional
    consonant := last == .consonant
    linked := false }

/-- Whether a mark keeps a consonant and the linker behind it together: all
    extending ones do but the non-joiner. -/
def keepsLink (code : Nat) : Bool := code != 0x200C

/-- The trail behind one more character. -/
def push (t : ClusterTrail) (c : Char) : ClusterTrail :=
  let code := c.toNat
  match clusterClass c with
  | .extending =>
    let consonant := t.consonant && keepsLink code
    { last := .extending
      pictograph := t.pictograph && t.last != .joiner
      halfPair := false
      consonant := consonant
      linked := consonant && (t.linked || consonantLinkerRanges.has code) }
  | .joiner =>
    { last := .joiner
      pictograph := t.pictograph && t.last != .joiner
      halfPair := false
      consonant := t.consonant
      linked := t.linked }
  | .regional => { behind .regional with halfPair := !t.halfPair }
  | cls => behind cls

/-- Whether a character goes on with the cluster before it. -/
def continues (t : ClusterTrail) (c : Char) : Bool :=
  match t.last, clusterClass c with
  | .carriageReturn, cls => cls == .lineFeed
  | .lineFeed, _ => false
  | .control, _ => false
  | _, .carriageReturn => false
  | _, .lineFeed => false
  | _, .control => false
  | .leading, _ => true
  | _, .extending => true
  | _, .joiner => true
  | _, .spacing => true
  | last, .onset => last == .onset
  | last, .openSyllable => last == .onset
  | last, .closedSyllable => last == .onset
  | last, .vowel => last == .onset || last == .vowel || last == .openSyllable
  | last, .coda =>
    last == .vowel || last == .coda || last == .openSyllable || last == .closedSyllable
  | last, .pictograph => last == .joiner && t.pictograph
  | _, .regional => t.halfPair
  | _, .consonant => t.linked
  | _, .leading => false
  | _, .other => false

end ClusterTrail

/-! ## Clusters -/

/-- The clusters of a text behind the part `current` of the first one, last
    character first, which left the trail `trail`. -/
def clustersFrom (trail : ClusterTrail) (current : List Char) : List Char → List Cluster
  | [] => [current.reverse]
  | c :: cs =>
    if trail.continues c then clustersFrom (trail.push c) (c :: current) cs
    else current.reverse :: clustersFrom (trail.push c) [c] cs

/-- The clusters of a text, in order. -/
def clusters : List Char → List Cluster
  | [] => []
  | c :: cs => clustersFrom (.behind (clusterClass c)) [c] cs

end Conform
