import CodeEditor.Buffer.Basic
/-!
Smart deletion.

Backspace inside the indentation of a line takes all of it before the cursor away. Delete at the end of a line, trailing
blanks not counted, joins the next line; unless the cursor stands at the very start of its line, the next line's
indentation goes too. Elsewhere both keys have their usual effect, and the flag is `false`.
-/

namespace CodeEditor.Buffer

/-- Backspace without a selection -/
def smartBackspace (b : Buffer) : Bool × Buffer :=
  let start := b.text.lineStart b.cursorLine
  if b.cursor = start || !(b.text.slice start b.cursor).allBlank then (false, b)
  else (true, b.erase start b.cursor)

/-- Delete without a selection -/
def smartDelete (b : Buffer) : Bool × Buffer :=
  let stop := b.text.lineEnd b.cursorLine
  if !(b.text.slice b.cursor stop).allBlank || b.length ≤ stop + 1 then (false, b)
  else
    let next := stop + 1
    let indent := if b.cursor = b.text.lineStart b.cursorLine then 0 else ((b.text.drop next).takeWhile isBlank).length
    (true, b.erase b.cursor (next + indent))

end CodeEditor.Buffer
