import CodeEditor.Pattern.CharSet
/-!
Patterns: what a regular expression means once its flags are resolved.

Every leaf reads one character of a set or checks an anchor; the flags of the written form have gone into the sets, the
anchors and the greediness of repetitions. Groups are numbered from 1 in the order of their opening parentheses.

An anchor looks at the two characters around a position only (`Anchor.holds`).
-/

namespace CodeEditor

/-- a kind of word boundary -/
inductive WordEdge where
  | boundary
  | interior
  | start
  | stop
  | startHalf
  | stopHalf
  deriving DecidableEq, Repr

/-- a condition on a position -/
inductive Anchor where
  | textStart
  | textEnd
  | lineStart
  | lineEnd
  /-- a line start where CR LF is one break and CR is one too -/
  | crlfLineStart
  /-- a line end where CR LF is one break and CR is one too -/
  | crlfLineEnd
  /-- an edge of a word, of ASCII word characters only if `ascii` -/
  | word (edge : WordEdge) (ascii : Bool)
  deriving DecidableEq, Repr

namespace WordEdge

/-- the edge lies between a character that is (or is not) of a word and one that is (or is not) -/
def holds (edge : WordEdge) (before after : Bool) : Bool :=
  match edge with
  | boundary => before != after
  | interior => before == after
  | start => !before && after
  | stop => before && !after
  | startHalf => !before
  | stopHalf => !after

end WordEdge

namespace Anchor

/-- the character beside a position is a word character -/
def isWord (ascii : Bool) (c : Option Char) : Bool :=
  c.any fun c => if ascii then isIdentifierChar c else isWordChar c

/-- the anchor holds between two characters; the ends of the text have none -/
def holds (anchor : Anchor) (before after : Option Char) : Bool :=
  match anchor with
  | textStart => before.isNone
  | textEnd => after.isNone
  | lineStart => before.isNone || before == some '\n'
  | lineEnd => after.isNone || after == some '\n'
  | crlfLineStart => before.isNone || before == some '\n' || (before == some '\r' && after != some '\n')
  | crlfLineEnd => after.isNone || after == some '\r' || (after == some '\n' && before != some '\r')
  | word edge ascii => edge.holds (isWord ascii before) (isWord ascii after)

end Anchor

/-- a regular expression -/
inductive Pattern where
  | empty
  | set (s : CharSet)
  | anchor (a : Anchor)
  | seq (p q : Pattern)
  | alt (p q : Pattern)
  /-- at least `low` times, at most `high` times if given; `greedy` prefers more to fewer -/
  | times (low : Nat) (high : Option Nat) (greedy : Bool) (p : Pattern)
  | group (index : Nat) (p : Pattern)
  deriving DecidableEq, Repr

namespace Pattern

/-- the least number of characters that a match reads, as far as the form tells; nothing is told of
a set without members -/
def leastRead? : Pattern → Option Nat
  | empty | anchor _ => some 0
  | set .none => none
  | set _ => some 1
  | seq p q => p.leastRead?.bind fun m => q.leastRead?.map (m + ·)
  | alt p q => p.leastRead?.bind fun m => q.leastRead?.map (min m ·)
  | times low _ _ p => p.leastRead?.map (low * ·)
  | group _ p => p.leastRead?

/-- can match the empty text, as far as the form tells -/
def isNullable (p : Pattern) : Bool :=
  p.leastRead?.all (· == 0)

/-- matches nothing but the empty text -/
def isZeroWidth : Pattern → Bool
  | empty => true
  | set _ => false
  | anchor _ => true
  | seq p q => p.isZeroWidth && q.isZeroWidth
  | alt p q => p.isZeroWidth && q.isZeroWidth
  | times _ high _ p => high == some 0 || p.isZeroWidth
  | group _ p => p.isZeroWidth

/-- number of groups -/
def groups : Pattern → Nat
  | empty | set _ | anchor _ => 0
  | seq p q | alt p q => p.groups + q.groups
  | times _ _ _ p => p.groups
  | group _ p => p.groups + 1

end Pattern

end CodeEditor
