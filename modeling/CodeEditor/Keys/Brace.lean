import CodeEditor.Buffer.Basic
import CodeEditor.Indent.LineShape
import CodeEditor.Indent.Unit
/-!
Typing braces.

A closing brace typed behind nothing but indentation moves one level out. An opening brace typed as the first character
under the head of a conditional or loop moves back to the head's level.
-/

namespace CodeEditor.Buffer

/-- type a closing brace -/
def closeBrace (b : Buffer) (unit : IndentUnit) : Buffer :=
  let start := b.text.lineStart b.cursorLine
  let before := b.text.slice start b.cursor
  let b := if unit.width ≤ before.length && unit.makesUp before then b.erase start (start + unit.width) else b
  b.insertAtCursor ['}']

/-- the cursor stands behind the indentation of a line one level below the head above it -/
def isUnderHead (b : Buffer) (unit : IndentUnit) : Bool :=
  let line := b.cursorLine
  let indent := b.text.lineIndent line
  let above := b.text.lineText (line - 1)
  line > 0 && unit.width ≤ indent.length && b.cursor == b.text.lineIndentEnd line &&
    (LineShape.ofLine above).isHeadless && indent.length - unit.width == above.indentation.length

/-- type an opening brace under a head; elsewhere nothing happens, and the flag says so -/
def openBrace (b : Buffer) (unit : IndentUnit) : Bool × Buffer :=
  if b.isUnderHead unit then (true, (b.erase (b.cursor - unit.width) b.cursor).insertAtCursor ['{'])
  else (false, b)

end CodeEditor.Buffer
