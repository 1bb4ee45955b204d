import CodeEditor.Text.Basic
import CodeEditor.Text.CaseOrbit
/-!
Sets of characters, as patterns write them.

A set is an expression: single characters, ranges, the three Unicode shorthands and tables, combined by the set
operations. Membership is read off the expression (`CharSet.contains`). `folded s` is the set of all characters that
differ from a member of `s` in case only, and `asciiFolded s` minds the case of ASCII letters only. Where the members
themselves count, as in the size of a pattern, the set is laid out as ranges of code points (`CharSet.ranges`).
-/

namespace CodeEditor

/-- an expression for a set of characters -/
inductive CharSet where
  | none
  | char (c : Char)
  | range (first last : Char)
  | word
  | digit
  | space
  | table (r : Ranges)
  | compl (s : CharSet)
  | union (s t : CharSet)
  | inter (s t : CharSet)
  | diff (s t : CharSet)
  | symmDiff (s t : CharSet)
  | folded (s : CharSet)
  | asciiFolded (s : CharSet)
  deriving DecidableEq, Repr

namespace CharSet

/-- the character is in the set -/
def contains : CharSet → Char → Bool
  | none, _ => false
  | char c, d => c == d
  | range first last, d => first ≤ d && d ≤ last
  | word, d => isWordChar d
  | digit, d => isDecimalDigit d
  | space, d => isWhiteSpace d
  | table r, d => r.has d.toNat
  | compl s, d => !s.contains d
  | union s t, d => s.contains d || t.contains d
  | inter s t, d => s.contains d && t.contains d
  | diff s t, d => s.contains d && !t.contains d
  | symmDiff s t, d => s.contains d != t.contains d
  | folded s, d => (caseOrbit d).any s.contains
  | asciiFolded s, d => s.contains d.toLower || s.contains d.toUpper || s.contains d

/-- the upper and lower case of ASCII letters -/
def asciiCases (r : Ranges) : Ranges :=
  let letters := (List.range 26).filter fun n => r.has (0x41 + n) || r.has (0x61 + n)
  r.union (.ofCodes (letters.flatMap fun n => [0x41 + n, 0x61 + n]))

/-- the members as ranges of code points -/
def ranges : CharSet → Ranges
  | none => []
  | char c => [(c.toNat, c.toNat)]
  | range first last => .characters first.toNat (last.toNat + 1)
  | word => .word
  | digit => .decimalDigits
  | space => .whiteSpace
  | table r => r
  | compl s => s.ranges.compl
  | union s t => s.ranges.union t.ranges
  | inter s t => s.ranges.inter t.ranges
  | diff s t => s.ranges.diff t.ranges
  | symmDiff s t => s.ranges.symmDiff t.ranges
  | folded s => s.ranges.withCases
  | asciiFolded s => asciiCases s.ranges

/-- the union of some sets -/
def unionAll (sets : List CharSet) : CharSet :=
  sets.foldr union none

/-- the 128 characters of ASCII -/
def ascii : CharSet :=
  range nul '\x7f'

/-- the ASCII part of `word` -/
def asciiWord : CharSet :=
  unionAll [range '0' '9', range 'A' 'Z', char '_', range 'a' 'z']

/-- the ASCII part of `digit` -/
def asciiDigit : CharSet :=
  range '0' '9'

/-- the letters and digits of ASCII -/
def asciiAlnum : CharSet :=
  unionAll [range '0' '9', range 'A' 'Z', range 'a' 'z']

/-- the ASCII part of `space` -/
def asciiSpace : CharSet :=
  union (range '\t' '\r') (char ' ')

/-- the named sets of a bracket expression, all within ASCII -/
def named : List (String × CharSet) :=
  [("alnum", asciiAlnum),
   ("alpha", union (range 'A' 'Z') (range 'a' 'z')),
   ("ascii", ascii),
   ("blank", union (char '\t') (char ' ')),
   ("cntrl", union (range nul '\x1f') (char '\x7f')),
   ("digit", asciiDigit),
   ("graph", range '!' '~'),
   ("lower", range 'a' 'z'),
   ("print", range ' ' '~'),
   ("punct", unionAll [range '!' '/', range ':' '@', range '[' '\x60', range '\x7b' '~']),
   ("space", asciiSpace),
   ("upper", range 'A' 'Z'),
   ("word", asciiWord),
   ("xdigit", unionAll [range '0' '9', range 'A' 'F', range 'a' 'f'])]

/-- the characters that a literal character stands for when case does not matter -/
def anyCase (c : Char) : CharSet :=
  match caseOrbit c with
  | [_] => char c
  | orbit => unionAll (orbit.map char)

end CharSet

end CodeEditor
