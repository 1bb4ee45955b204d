import CodeEditor.Text.LineBreak
import CodeEditor.Text.Quoted
/-!
A cursor: a text and an offset in it that never leaves `0..length`.

Moving never fails. A step forward answers `false` when it could not move or reached the end of the text, a step
backward answers `false` when it could not move. Reading at the end gives NUL.
-/

namespace CodeEditor

/-- an offset in a text -/
structure Cursor where
  text : Text
  offset : Nat
  deriving DecidableEq, Repr

namespace Cursor

/-- the cursor at an offset (clamped) -/
def ofOffset (t : Text) (offset : Nat) : Cursor :=
  ⟨t, min offset t.length⟩

/-- the character under the cursor -/
def char (c : Cursor) : Char :=
  c.text.charAt c.offset

/-- the character before the cursor; at the start of the text, the one under it -/
def previous (c : Cursor) : Char :=
  c.text.charAt (c.offset - 1)

/-- the character two before the cursor, with the same clamping -/
def secondPrevious (c : Cursor) : Char :=
  c.text.charAt (c.offset - 2)

/-- the character after the one under the cursor -/
def next (c : Cursor) : Char :=
  c.text.charAt (c.offset + 1)

/-- one step forward; `false` if the cursor did not move or reached the end -/
def forward (c : Cursor) : Bool × Cursor :=
  if c.offset < c.text.length then (c.offset + 1 < c.text.length, { c with offset := c.offset + 1 })
  else (false, c)

/-- one step backward; `false` at the start -/
def backward (c : Cursor) : Bool × Cursor :=
  if c.offset = 0 then (false, c) else (true, { c with offset := c.offset - 1 })

/-- `count` steps forward at once, stopping at the end; `false` if the end was reached or `count` is 0 -/
def forwardBy (c : Cursor) (count : Nat) : Bool × Cursor :=
  let offset := min (word64 (c.offset + count)) c.text.length
  (count > 0 && offset < c.text.length, { c with offset })

/-- `count` steps backward at once, stopping at the start; `false` if the start cut them short or `count` is 0 -/
def backwardBy (c : Cursor) (count : Nat) : Bool × Cursor :=
  (0 < count && count ≤ c.offset, { c with offset := c.offset - count })

/-- at the start of the text -/
def isStart (c : Cursor) : Bool :=
  c.offset == 0

/-- at the end of the text -/
def isEnd (c : Cursor) : Bool :=
  c.text.length ≤ c.offset

/-- at the start of the text or behind an LF -/
def startsLine (c : Cursor) : Bool :=
  c.text.startsLine c.offset

/-- at the end of the text or on an LF -/
def endsLine (c : Cursor) : Bool :=
  c.text.endsLine c.offset

/-- the line of the cursor -/
def line (c : Cursor) : Nat :=
  c.text.lineOf c.offset

/-- the column of the cursor in its line -/
def column (c : Cursor) : Nat :=
  c.offset - c.text.lineStart c.line

/-- line and column -/
def position (c : Cursor) : Position :=
  ⟨c.line, c.column⟩

/-- cursors compare by offset -/
def compare (c d : Cursor) : Ordering :=
  Ord.compare c.offset d.offset

/-- the display of a cursor: its offset and the quoted character under it -/
def display (c : Cursor) : Text :=
  "TextIter \x7b offset: ".toList ++ Text.ofNat c.offset ++ ", char: ".toList ++ Quoted.char c.char ++ " \x7d".toList

end Cursor

end CodeEditor
