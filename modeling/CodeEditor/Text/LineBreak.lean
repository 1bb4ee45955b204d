import CodeEditor.Text.Basic
/-!
Lines of a text.

A line ends with one of eight breaks: LF, CR, CR LF (one break of two characters), VT, FF, NEL, LS, PS. The break
belongs to the line it ends, and a text that ends in a break has one more, empty line. All line arithmetic is read off
one list, `breakEnds`: the offsets just past each break, in increasing order. Line `k + 1` starts at the `k`-th of them,
and an offset lies on the line whose number is the count of break ends at or before it.

The last character of a break is the only one left out of the line's text, so that before a CR LF
the line text ends in CR.
-/

namespace CodeEditor

/-- a character that ends a line by itself -/
def isBreak (c : Char) : Bool :=
  c == '\n' || c == '\r' || c == '\x0b' || c == '\x0c' || c == '\u0085' || c == '\u2028' || c == '\u2029'

namespace Text

/-- offsets just past each break, for a text that starts at `offset` -/
def breakEndsFrom (offset : Nat) : Text → List Nat
  | [] => []
  | '\r' :: '\n' :: t => (offset + 2) :: breakEndsFrom (offset + 2) t
  | c :: t => if isBreak c then (offset + 1) :: breakEndsFrom (offset + 1) t else breakEndsFrom (offset + 1) t

/-- offsets just past each break -/
def breakEnds (t : Text) : List Nat :=
  breakEndsFrom 0 t

/-- number of lines: one more than breaks -/
def lineCount (t : Text) : Nat :=
  t.breakEnds.length + 1

/-- the line that holds an offset (clamped) -/
def lineOf (t : Text) (offset : Nat) : Nat :=
  t.breakEnds.countP (· ≤ offset)

/-- the last line that exists, if `line` is past it -/
def clampLine (t : Text) (line : Nat) : Nat :=
  min line (t.lineCount - 1)

/-- offset of the first character of a line (clamped to the last line) -/
def lineStart (t : Text) (line : Nat) : Nat :=
  match t.clampLine line with
  | 0 => 0
  | k + 1 => t.breakEnds.getD k t.length

/-- offset of the last break character of a line, or the end of the text on the last line (clamped to the last line) -/
def lineEnd (t : Text) (line : Nat) : Nat :=
  match t.breakEnds[t.clampLine line]? with
  | some next => next - 1
  | none => t.length

/-- text of a line up to `lineEnd` (empty past the last line) -/
def lineText (t : Text) (line : Nat) : Text :=
  if line < t.lineCount then t.slice (t.lineStart line) (t.lineEnd line) else []

/-- the leading blanks of a line (of the last line, past it) -/
def lineIndent (t : Text) (line : Nat) : Text :=
  indentation (t.slice (t.lineStart line) (t.lineEnd line))

/-- offset just past the leading blanks of a line -/
def lineIndentEnd (t : Text) (line : Nat) : Nat :=
  t.lineStart line + (t.lineIndent line).length

/-- the offset is 0 or follows an LF; the other breaks do not count here -/
def startsLine (t : Text) : Nat → Bool
  | 0 => true
  | offset + 1 => t.charAt offset == '\n'

/-- the offset is the end of the text or holds an LF; the other breaks do not count here -/
def endsLine (t : Text) (offset : Nat) : Bool :=
  t.length ≤ offset || t.charAt offset == '\n'

end Text

/-- a place in a text: line and column, both from 0 -/
structure Position where
  line : Nat
  column : Nat
  deriving DecidableEq, Repr

namespace Position

/-- by line, then by column -/
def compare (p q : Position) : Ordering :=
  (Ord.compare p.line q.line).then (Ord.compare p.column q.column)

/-- at or before -/
def le (p q : Position) : Bool :=
  p.compare q != .gt

/-- in increasing order -/
def sort (ps : List Position) : List Position :=
  ps.mergeSort le

end Position

/-- reduction to an unsigned 64-bit word, in which offsets are added -/
def word64 (n : Nat) : Nat :=
  n % UInt64.size

namespace Text

/-- the position of an offset (clamped) -/
def positionOf (t : Text) (offset : Nat) : Position :=
  let offset := min offset t.length
  let line := t.lineOf offset
  ⟨line, offset - t.lineStart line⟩

/-- the offset of a column of a line, clamped to the line; a line past the last one is the end of the text -/
def columnOffset (t : Text) (line column : Nat) : Nat :=
  if line < t.lineCount then min (t.lineStart line + column) (t.lineEnd line) else t.length

/-- the offset of a position: its column is clamped to the line, a line past the last one is the end of the text -/
def offsetOf (t : Text) (p : Position) : Nat :=
  if p.line < t.lineCount then min (word64 (t.lineStart p.line + p.column)) (t.lineEnd p.line) else t.length

end Text

end CodeEditor
