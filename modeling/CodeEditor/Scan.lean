import CodeEditor.Spans
import CodeEditor.Text.LineBreak
import CodeEditor.Text.CharClass
/-!
Bracket scans.

A scan reads characters one by one, forward or backward, and skips those inside comment and string spans. It also skips
single-quoted stretches: a quote switches between inside and outside unless a backslash escapes it. Only the two
characters before the quote decide that (`quoteToggles`), so a scan can start anywhere.

Two counts are kept by different scans: round and square brackets separately (`Nesting`), or the depth of braces
(`BraceDepth`). Counts are signed numbers of 32 bits and wrap around, so they are what they stand for only as long as
no more than 2 ^ 31 brackets wait for their partners. Every scan is a walk over a list of offsets, in the order in which
they are read.
-/

namespace CodeEditor

/-- the quote at `offset` is not escaped: a backslash before it escapes it, unless another
backslash stands before that -/
def quoteToggles (t : Text) (offset : Nat) : Bool :=
  t.charAt (offset - 1) != '\\' || t.charAt (offset - 2) == '\\'

/-- a count of 32 bits is read as a number -/
instance coeCount : Coe Int32 Int where
  coe := Int32.toInt

/-! ## Round and square brackets -/

/-- counts of a backward scan: closing brackets seen minus opening ones -/
structure Nesting where
  round : Int32
  square : Int32
  quoted : Bool
  deriving DecidableEq, Repr

namespace Nesting

/-- nothing read yet -/
def initial : Nesting :=
  ⟨0, 0, false⟩

/-- read the character at `offset` -/
def read (t : Text) (spans : Spans) (n : Nesting) (offset : Nat) : Nesting :=
  if spans.covers offset then n
  else
    let c := t.charAt offset
    if c = '\'' then (if quoteToggles t offset then { n with quoted := !n.quoted } else n)
    else if n.quoted then n
    else if c = ')' then { n with round := n.round + 1 }
    else if c = ']' then { n with square := n.square + 1 }
    else if c = '(' then { n with round := n.round - 1 }
    else if c = '[' then { n with square := n.square - 1 }
    else n

/-- no closing bracket waits for its opening one -/
def isClosed (n : Nesting) : Bool :=
  n.round ≤ 0 && n.square ≤ 0

/-- an opening bracket without its closing one was read -/
def hasOpener (n : Nesting) : Bool :=
  n.round < 0 || n.square < 0

end Nesting

/-- walk back from `offset` to the first line start at which the brackets are closed, or to the start of the text -/
def statementLineStart (t : Text) (spans : Spans) (n : Nesting) : Nat → Nat
  | 0 => 0
  | offset + 1 =>
    let n := n.read t spans (offset + 1)
    if t.startsLine (offset + 1) && n.isClosed then offset + 1 else statementLineStart t spans n offset

/-- start of the statement around `start`: the line start found by `statementLineStart`, advanced over the leading run
of the indent character but never past `start` -/
def statementStart (t : Text) (spans : Spans) (indent : Char) (start : Nat) : Nat :=
  let first := statementLineStart t spans Nesting.initial start
  first + ((t.slice first start).takeWhile (· == indent)).length

/-- the first unmatched `(` or `[` on the way back from `start` (exclusive) to `stop` (inclusive) -/
def openBracketFrom (t : Text) (spans : Spans) (stop : Nat) (n : Nesting) : Nat → Option Nat
  | 0 => none
  | offset + 1 =>
    if offset + 1 = stop then none
    else if spans.covers offset then openBracketFrom t spans stop n offset
    else
      let n := n.read t spans offset
      if n.hasOpener then some offset else openBracketFrom t spans stop n offset

/-- the unmatched `(` or `[` nearest before `start`, not before `stop` -/
def openBracket? (t : Text) (spans : Spans) (start stop : Nat) : Option Nat :=
  openBracketFrom t spans stop Nesting.initial start

/-! ## Braces -/

/-- state of a brace scan: how many blocks were entered, and whether a single quote is open -/
structure BraceDepth where
  depth : Int32
  quoted : Bool
  deriving DecidableEq, Repr

namespace BraceDepth

/-- nothing read yet -/
def initial : BraceDepth :=
  ⟨0, false⟩

/-- read the character at `offset`; `none` if it is the `target` that belongs to the starting level -/
def read? (t : Text) (spans : Spans) (opener target : Char) (d : BraceDepth) (offset : Nat) : Option BraceDepth :=
  if spans.covers offset then some d
  else
    let c := t.charAt offset
    if c = '\'' then (if quoteToggles t offset then some { d with quoted := !d.quoted } else some d)
    else if d.quoted then some d
    else if c = target then (if d.depth = 0 then none else some { d with depth := d.depth - 1 })
    else if c = opener then some { d with depth := d.depth + 1 }
    else some d

/-- the first of the offsets that holds the target at the starting level -/
def find? (t : Text) (spans : Spans) (opener target : Char) (d : BraceDepth) : List Nat → Option Nat
  | [] => none
  | offset :: rest =>
    match d.read? t spans opener target offset with
    | none => some offset
    | some d => find? t spans opener target d rest

end BraceDepth

/-- the `}` that closes the block entered at `start`: forward, `start` itself not read -/
def closingBrace? (t : Text) (spans : Spans) (start : Nat) : Option Nat :=
  BraceDepth.initial.find? t spans '{' '}' (List.range' (start + 1) (t.length - (start + 1)))

/-- the `{` that opens the block around `start`: backward, `start` itself not read -/
def openingBrace? (t : Text) (spans : Spans) (start : Nat) : Option Nat :=
  BraceDepth.initial.find? t spans '}' '{' (List.range start).reverse

/-! ## Identifiers -/

/-- offset of the first character of the identifier that holds `offset`, and `offset` itself if there is none -/
def identifierStart (t : Text) (offset : Nat) : Nat :=
  if isIdentifierChar (t.charAt offset) then
    offset - ((t.take offset).reverse.takeWhile isIdentifierChar).length
  else offset

/-- offset just past the identifier that holds `offset` -/
def identifierEnd (t : Text) (offset : Nat) : Nat :=
  offset + ((t.drop offset).takeWhile isIdentifierChar).length

/-- the identifier that holds `offset`, empty if there is none -/
def identifierAt (t : Text) (offset : Nat) : Text :=
  t.slice (identifierStart t offset) (identifierEnd t offset)

end CodeEditor
