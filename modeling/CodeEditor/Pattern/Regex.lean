import CodeEditor.Pattern.Matcher
import CodeEditor.Pattern.Parser
import CodeEditor.Pattern.Size
/-!
Compiled patterns and searching with them.

A search takes the leftmost start that has a match. The matches of a text do not overlap: each one is
searched from the end of the one before, and an empty match there is skipped in favour of a search one
character later (`Regex.allMatches`).
-/

namespace CodeEditor

/-- a pattern ready for searching, with the names of its groups -/
structure Regex where
  pattern : Pattern
  names : List (Text × Nat)
  deriving DecidableEq, Repr

/-- a match: the characters from `start` up to but not including `stop`, and the groups passed, the latest first -/
structure Match where
  start : Nat
  stop : Nat
  captures : List (Nat × Nat × Nat)
  deriving DecidableEq, Repr

namespace Match

/-- number of characters -/
def length (m : Match) : Nat :=
  m.stop - m.start

/-- no characters -/
def isEmpty (m : Match) : Bool :=
  m.stop ≤ m.start

/-- start and end of a group, the whole match for group 0 -/
def group? (m : Match) (index : Nat) : Option (Nat × Nat) :=
  if index = 0 then some (m.start, m.stop) else m.captures.lookup index

end Match

namespace Regex

/-- compile a written pattern; `none` if it is none, or too large -/
def compile? [UnicodeClasses] (f : Pattern.Flags) (t : Text) : Option Regex :=
  match Pattern.parse? f t with
  | none => none
  | some (pattern, names) => if pattern.fits then some ⟨pattern, names⟩ else none

/-- the preferred match that starts at an offset, if `before` and `rest` are what lies around it -/
def matchAt? (r : Regex) (offset : Nat) (before : Option Char) (rest : Text) : Option Match :=
  (r.pattern.matchAt? ⟨offset, before, rest, []⟩).map fun found => ⟨offset, found.stop, found.captures⟩

/-- the leftmost match from an offset on -/
def searchFrom? (r : Regex) (offset : Nat) (before : Option Char) (rest : Text) : Option Match :=
  match r.matchAt? offset before rest with
  | some m => some m
  | none =>
    match rest with
    | [] => none
    | c :: rest => searchFrom? r (offset + 1) (some c) rest

/-- the leftmost match of a text that starts at `offset` or later -/
def find? (r : Regex) (t : Text) (offset : Nat) : Option Match :=
  if t.length < offset then none
  else r.searchFrom? offset (if offset = 0 then none else t[offset - 1]?) (t.drop offset)

/-- the match behind one that ended at `last`; `none` before the first one -/
def next? (r : Regex) (t : Text) (last : Option Nat) : Option Match :=
  let start := last.getD 0
  match r.find? t start with
  | none => none
  | some m => if m.isEmpty && last == some m.stop then r.find? t (start + 1) else some m

/-- the matches behind one that ended at `last`, at most `most` of them -/
def matchesAfter (r : Regex) (t : Text) (last : Option Nat) : Nat → List Match
  | 0 => []
  | most + 1 =>
    match r.next? t last with
    | none => []
    | some m => m :: matchesAfter r t (some m.stop) most

/-- every match of a text, in order; there cannot be more than there are places to start -/
def allMatches (r : Regex) (t : Text) : List Match :=
  r.matchesAfter t none (t.length + 1)

end Regex

end CodeEditor
