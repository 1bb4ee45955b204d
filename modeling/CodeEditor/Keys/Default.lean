import CodeEditor.Buffer.Basic
import CodeEditor.Keys.Key
/-!
What a key does when nothing special applies.

Characters and Enter replace the selection, unless Control or the command key is held; Backspace and Delete remove
the selection or one character; the arrows, Home and End move the cursor, with Shift the other end of the selection
stays. Tab does nothing.
-/

namespace CodeEditor.Buffer

/-- replace the selection by a text -/
def typeText (b : Buffer) (t : Text) : Buffer :=
  b.deleteSelection.insertAtCursor t

/-- where an arrow up or down goes: the same column of the line above or below. Line and column are of this text, and
the sum of two of its offsets is a word, so nothing is reduced here -/
def verticalTarget (b : Buffer) (down : Bool) : Nat :=
  let position := b.cursorPosition
  let line := if down then min (position.line + 1) (b.text.lineCount - 1) else position.line - 1
  b.text.columnOffset line position.column

/-- the usual effect of a key -/
def defaultKey (b : Buffer) (key : Key) (mods : Modifiers) : Buffer :=
  match key with
  | .char c => if mods.control || mods.command then b else b.typeText [c]
  | .enter => b.typeText ['\n']
  | .tab | .backTab => b
  | .backspace =>
    if b.hasSelection then b.deleteSelection
    else if b.cursor > 0 then b.erase (b.cursor - 1) b.cursor
    else b
  | .delete => if b.hasSelection then b.deleteSelection else b.erase b.cursor (b.cursor + 1)
  | .left => b.moveCursor (b.cursor - 1) mods.shift
  | .right => b.moveCursor (b.cursor + 1) mods.shift
  | .up => b.moveCursor (b.verticalTarget false) mods.shift
  | .down => b.moveCursor (b.verticalTarget true) mods.shift
  | .home => b.moveCursor 0 mods.shift
  | .stop => b.moveCursor b.length mods.shift

end CodeEditor.Buffer
