import CodeEditor.Buffer.Basic
import CodeEditor.Indent.Unit
import CodeEditor.Text.LineEnding
/-!
Smart paste.

A block pasted at the end of a line that holds nothing but indentation is moved onto that indentation, and keeps its own
nesting (`rebase`). Every other paste goes in as it is, in place of the selection.
-/

namespace CodeEditor

/-- how a paste went in -/
inductive PasteMode where
  | reindented
  | verbatim
  deriving DecidableEq, Repr

/-- number of leading copies of the unit character -/
def leadingUnits (unit : Char) (line : Text) : Nat :=
  (line.takeWhile (· == unit)).length

/-- the line holds nothing but unit characters -/
def isBlankFor (unit : Char) (line : Text) : Bool :=
  leadingUnits unit line == line.length

/-- smallest indentation of a block: of its lines that are not blank, the first one only if it is indented
itself; 0 without any -/
def commonUnits (unit : Char) : List Text → Nat
  | [] => 0
  | first :: rest =>
    let counted := (rest.filter (!isBlankFor unit ·)).map (leadingUnits unit)
    ((if leadingUnits unit first = 0 then counted else leadingUnits unit first :: counted).min?).getD 0

/-- a line without up to `most` leading unit characters; `most` is an amount of encoded text, so that a unit character
of several bytes counts as many times -/
def stripUnits (unit : Char) (most : Nat) (line : Text) : Text :=
  line.drop (min (leadingUnits unit line) most / unit.utf8Size)

/-- a block of lines moved behind `indent`: the common indentation goes, and every line but the
first starts with `indent` -/
def rebase (unit : Char) (indent : Text) (lines : List Text) : Text :=
  match lines with
  | [] => []
  | first :: rest =>
    let common := commonUnits unit lines
    stripUnits unit common first ++ rest.flatMap fun line => '\n' :: indent ++ stripUnits unit common line

/-- lines of a pasted text, without the empty one behind a last LF -/
def pastedLines (t : Text) : List Text :=
  let lines := t.splitOn '\n'
  if lines.getLast? = some [] then lines.dropLast else lines

namespace Buffer

/-- the cursor, without a selection, stands at the end of a line of nothing but indentation -/
def onBlankLine (b : Buffer) : Bool :=
  let indentEnd := b.text.lineIndentEnd b.cursorLine
  !b.hasSelection && b.cursor == indentEnd && indentEnd == b.text.lineEnd b.cursorLine

/-- paste a text at the cursor -/
def paste (b : Buffer) (t : Text) (unit : IndentUnit) : PasteMode × Buffer :=
  let t := t.normalizeNewlines
  if b.onBlankLine then
    (.reindented, b.insertAtCursor (rebase unit.ch (b.text.lineIndent b.cursorLine) (pastedLines t)))
  else (.verbatim, b.deleteSelection.insertAtCursor t)

end Buffer

end CodeEditor
