import CodeEditor.Text.Basic
import CodeEditor.Text.Emoji
import CodeEditor.Text.Marks
/-!
Grapheme clusters: what a reader takes for one character.

A cluster is a character with the marks that belong to it, a syllable of Hangul, a conjunct of consonants, a flag,
or several emoji joined to one (Unicode Standard Annex 29, extended clusters). Whether a cluster goes on between
two characters hangs on the classes of the two and, for conjuncts, flags and joined emoji, on what the cluster
holds already (`continues`).
-/

namespace CodeEditor

/-- how a character takes part in clusters -/
inductive GraphemeClass where
  | carriageReturn
  | lineFeed
  | control
  /-- a mark on the character before it -/
  | extender
  | joiner
  /-- a mark beside the character before it -/
  | spacingMark
  /-- a mark on the character behind it -/
  | prepended
  /-- the initial of a Hangul syllable -/
  | initial
  | vowel
  | final
  /-- a Hangul syllable without a final -/
  | openSyllable
  | closedSyllable
  | indicator
  | pictograph
  | consonant
  | other
  deriving DecidableEq, Repr

/-- the class of a part of a Hangul syllable, or of a whole one -/
def hangulClass? (n : Nat) : Option GraphemeClass :=
  if (0x1100 ≤ n && n ≤ 0x115f) || (0xa960 ≤ n && n ≤ 0xa97c) then some .initial
  else if (0x1160 ≤ n && n ≤ 0x11a7) || (0xd7b0 ≤ n && n ≤ 0xd7c6) then some .vowel
  else if (0x11a8 ≤ n && n ≤ 0x11ff) || (0xd7cb ≤ n && n ≤ 0xd7fb) then some .final
  else if 0xac00 ≤ n && n ≤ 0xd7a3 then some (if (n - 0xac00) % 28 = 0 then .openSyllable else .closedSyllable)
  else none

/-- a vowel of Kirat Rai; these make clusters as the vowels of Hangul do -/
def isKiratVowel (n : Nat) : Bool :=
  n = 0x16d63 || (0x16d67 ≤ n && n ≤ 0x16d6a)

/-- the class of a character -/
def graphemeClass (c : Char) : GraphemeClass :=
  let n := c.toNat
  if c = '\r' then .carriageReturn
  else if c = '\n' then .lineFeed
  else if 32 ≤ n && n < 127 then .other
  else if Ranges.controls.has n then .control
  else if c = zeroWidthJoiner then .joiner
  else if Ranges.extenders.has n || isSkinTone c then .extender
  else if Ranges.spacingMarks.has n then .spacingMark
  else if Ranges.prepended.has n then .prepended
  else if isIndicator c then .indicator
  else if Ranges.pictographs.has n then .pictograph
  else if Ranges.consonants.has n then .consonant
  else if isKiratVowel n then .vowel
  else (hangulClass? n).getD .other

/-- a mark within a conjunct -/
def isConjunctMark (c : Char) : Bool :=
  (graphemeClass c == .extender || graphemeClass c == .joiner) && c.toNat != 0x200c

/-- the text read, the latest character first, ends in a consonant that a linker binds to the next one -/
def endsInLinkedConsonant (read : List Char) : Bool :=
  (read.takeWhile isConjunctMark).any isLinker &&
    (read.dropWhile isConjunctMark).head?.any (graphemeClass · == .consonant)

/-- the text read, the latest character first, ends in a picture, perhaps with marks on it -/
def endsInPictograph (read : List Char) : Bool :=
  (read.dropWhile (graphemeClass · == .extender)).head?.any (graphemeClass · == .pictograph)

/-- the cluster read, the latest character first, goes on with the next character -/
def continues (read : List Char) (next : Char) : Bool :=
  match read with
  | [] => false
  | last :: before =>
    match graphemeClass last, graphemeClass next with
    | .carriageReturn, .lineFeed => true
    | .carriageReturn, _ | .lineFeed, _ | .control, _ => false
    | _, .carriageReturn | _, .lineFeed | _, .control => false
    | .initial, .initial | .initial, .vowel | .initial, .openSyllable | .initial, .closedSyllable => true
    | .openSyllable, .vowel | .openSyllable, .final | .vowel, .vowel | .vowel, .final => true
    | .closedSyllable, .final | .final, .final => true
    | _, .extender | _, .joiner | _, .spacingMark | .prepended, _ => true
    | _, .consonant => endsInLinkedConsonant read
    | .joiner, .pictograph => endsInPictograph before
    | .indicator, .indicator => (read.takeWhile isIndicator).length % 2 = 1
    | _, _ => false

/-- clusters of a text, with `read` the one being read, its latest character first -/
def clustersFrom (read : List Char) : Text → List Text
  | [] => if read.isEmpty then [] else [read.reverse]
  | c :: t =>
    if read.isEmpty then clustersFrom [c] t
    else if continues read c then clustersFrom (c :: read) t
    else read.reverse :: clustersFrom [c] t

/-- the grapheme clusters of a text -/
def clusters (t : Text) : List Text :=
  clustersFrom [] t

end CodeEditor
