import CodeEditor.Buffer.Basic
/-!
Line comments on and off.

The lines under the selection count, blank ones left out; a selection that ends at the very start of a line leaves
that line out too. If all of them start with the comment mark behind their indentation, it is removed, and the
space behind it as well if every line has one. Otherwise the mark and a space go in at the smallest indentation,
so that the marks line up.
-/

namespace CodeEditor

/-- what a toggle did, with the number of lines -/
inductive CommentToggle where
  | commented (lines : Nat)
  | uncommented (lines : Nat)
  | unchanged
  deriving DecidableEq, Repr

/-- what a toggle needs to know about a line -/
structure CommentLine where
  line : Nat
  indent : Nat
  /-- the mark follows the indentation -/
  commented : Bool
  /-- a space follows the mark -/
  spaced : Bool
  deriving DecidableEq, Repr

/-- look at one line; a blank one does not count -/
def commentLine? (t mark : Text) (line : Nat) : Option CommentLine :=
  let text := t.slice (t.lineStart line) (t.lineEnd line)
  let content := text.content
  if content.isEmpty then none
  else some {
    line
    indent := text.indentation.length
    commented := mark.isPrefixOf content
    spaced := (mark ++ [' ']).isPrefixOf content }

/-- the lines a toggle looks at, blank ones included -/
def Buffer.commentRange (b : Buffer) : List Nat :=
  let first := b.text.lineOf b.selectionStart
  let last := b.text.lineOf b.selectionEnd
  let last := if first != last && b.text.startsLine b.selectionEnd then last - 1 else last
  List.range' first (last + 1 - first)

namespace Buffer

/-- remove the mark of a line; a line whose indentation is deeper than `column` has it behind the deeper indentation -/
def uncommentLine (b : Buffer) (column length : Nat) (line : Nat) : Buffer :=
  let start := b.text.lineStart line + column
  let start := start + ((b.text.drop start).takeWhile isBlank).length
  b.erase start (start + length)

/-- put the mark into a line at a column -/
def commentLine (b : Buffer) (column : Nat) (mark : Text) (line : Nat) : Buffer :=
  b.insert (b.text.lineStart line + column) (mark ++ [' '])

/-- comment the lines under the selection, or uncomment them if all are commented -/
def toggleComments (b : Buffer) (mark : Text) : CommentToggle × Buffer :=
  if mark.isEmpty then (.unchanged, b)
  else
    let lines := b.commentRange.filterMap (commentLine? b.text mark)
    match (lines.map CommentLine.indent).min? with
    | none => (.unchanged, b)
    | some column =>
      let numbers := lines.map CommentLine.line
      if lines.all CommentLine.commented then
        let length := mark.length + if lines.all CommentLine.spaced then 1 else 0
        (.uncommented lines.length, numbers.foldl (fun b line => b.uncommentLine column length line) b)
      else (.commented lines.length, numbers.foldl (fun b line => b.commentLine column mark line) b)

end Buffer

end CodeEditor
