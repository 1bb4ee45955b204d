import CodeEditor.Buffer.Basic
import CodeEditor.Indent.Unit
/-!
The Tab key.

Tab puts one unit in front of every selected line, and Tab with Shift takes up to one unit away, the same number of
blanks from every line; if one of them is not indented, nothing happens. A selection that ends at the very start of a
line leaves that line out.

On an empty line without a selection, Tab copies the indentation of the nearest lines that are not empty, the shallower
of the two, if it is at least one unit.
-/

namespace CodeEditor.Buffer

/-- the lines under the selection, or the line of the cursor -/
def selectedLines (b : Buffer) : List Nat :=
  let first := b.text.lineOf b.selectionStart
  let last := b.text.lineOf b.selectionEnd
  (List.range' first (last + 1 - first)).filter fun line =>
    !b.hasSelection || b.text.lineStart line != b.selectionEnd

/-- put some text in front of a line -/
def indentLine (b : Buffer) (unit : IndentUnit) (line : Nat) : Buffer :=
  b.insert (b.text.lineStart line) unit.text

/-- the indentation that an empty line takes over: the shallower of those of the nearest lines that are not empty -/
def neighbourIndent (t : Text) (offset : Nat) : Text :=
  let newlinesBefore := ((t.take offset).reverse.takeWhile (· == '\n')).length
  let newlinesBehind := ((t.drop offset).takeWhile (· == '\n')).length
  let above := t.lineIndent (t.lineOf (offset - newlinesBefore))
  let below := t.lineIndent (t.lineOf (min (offset + newlinesBehind + 1) t.length))
  if above.length < below.length then above else below

/-- Tab: indent the selected lines; without a selection and with `wholeLine` off, insert at the cursor -/
def indentLines (b : Buffer) (unit : IndentUnit) (wholeLine : Bool) : Buffer :=
  if !wholeLine && !b.hasSelection then b.insertAtCursor unit.text
  else
    let indent := neighbourIndent b.text b.cursor
    if !b.hasSelection && b.text.startsLine b.cursor && b.text.endsLine b.cursor && unit.width ≤ indent.length then
      b.insertAtCursor indent
    else b.selectedLines.foldl (fun b line => b.indentLine unit line) b

/-- the selected lines that are not empty -/
def unindentable (b : Buffer) : List Nat :=
  b.selectedLines.filter fun line => b.text.lineStart line != b.text.lineEnd line

/-- how many blanks go: one unit, or the smallest indentation of the lines if that is less -/
def unindentWidth (b : Buffer) (unit : IndentUnit) : Nat :=
  b.unindentable.foldl (fun width line => min width (b.text.lineIndent line).length) unit.width

/-- take blanks away from the start of a line -/
def unindentLine (b : Buffer) (width : Nat) (line : Nat) : Buffer :=
  let start := b.text.lineStart line
  b.erase start (start + width)

/-- Tab with Shift: take up to one unit away from the selected lines -/
def unindentLines (b : Buffer) (unit : IndentUnit) : Buffer :=
  let width := b.unindentWidth unit
  if width = 0 then b else b.unindentable.foldl (fun b line => b.unindentLine width line) b

end CodeEditor.Buffer
