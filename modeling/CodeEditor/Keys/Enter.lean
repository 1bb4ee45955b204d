import CodeEditor.Buffer.Basic
import CodeEditor.Indent.LineShape
import CodeEditor.Indent.Unit
import CodeEditor.Scan
/-!
The Enter key.

First the blanks around the cursor go, so that none are left at the end of the old line or doubled at the start of the
new one. Then the new line gets its indentation.

In a language without braces it copies the current line's, or the next line's if that is deeper and the cursor stands at
the end of its line (`Buffer.plainEnter`). Where blocks stand between braces the edit is planned first
(`EnterPlan.make`) and then carried out (`EnterPlan.apply`). In order of precedence, the new line

* behind an opening brace is one level in, and the block is closed if it was not;
* inside an open parenthesis or square bracket starts in the column behind it;
* behind the head of a conditional or loop is one level in;
* behind the one statement of such a head goes back to the head's level;
* behind a label stays level with the label's statements, and the label itself moves one level out;
* else keeps the level of the statement.
-/

namespace CodeEditor

/-! ## Blanks around the cursor -/

/-- the stretch of blanks around an offset, within its line: those behind it always, those before it unless nothing but
indentation would be left of the line -/
def blanksAround (t : Text) (offset : Nat) : Nat × Nat :=
  let line := t.lineOf offset
  let before := ((t.slice (t.lineStart line) offset).reverse.takeWhile isBlank).length
  let behind := ((t.slice offset (t.lineEnd line)).takeWhile isBlank).length
  (if offset - before = t.lineStart line then offset else offset - before, offset + behind)

namespace Buffer

/-- take the blanks around the cursor away -/
def trimAroundCursor (b : Buffer) : Buffer :=
  let (start, stop) := blanksAround b.text b.cursor
  b.erase start stop

/-- Enter in a language without braces -/
def plainEnter (b : Buffer) : Buffer :=
  let b := b.trimAroundCursor
  let line := b.cursorLine
  let indent := b.text.lineIndent line
  let next := b.text.lineIndent (line + 1)
  let atEnd := b.cursor == b.text.lineEnd line && line + 1 < b.text.lineCount
  b.insertAtCursor ('\n' :: if atEnd && next.length > indent.length then next else indent)

end Buffer

/-! ## Languages with braces -/

/-- what Enter does to a text -/
inductive EnterPlan where
  /-- insert at the cursor, then move the cursor back -/
  | insert (t : Text) (back : Nat)
  /-- remove `[start, stop)` from the line of the cursor, then insert at the cursor -/
  | dedent (start stop : Nat) (t : Text)
  deriving DecidableEq, Repr

/-- what Enter has to know besides the text -/
structure EnterContext where
  spans : Spans
  unit : IndentUnit
  /-- the body of a record ends in a brace and a semicolon -/
  semicolon : Bool
  deriving DecidableEq, Repr

/-- the offset behind the last LF before an offset -/
def lineFeedStart (t : Text) (offset : Nat) : Nat :=
  offset - ((t.take offset).reverse.takeWhile (· != '\n')).length

/-- the statement that starts at an offset declares a record; if it starts with no word, the one before it is asked -/
def opensRecord (t : Text) (c : EnterContext) (statement : Nat) : Bool :=
  let word := identifierAt t statement
  let word :=
    if !word.isEmpty then word
    else match lineFeedStart t statement with
      | 0 => word
      | before + 1 => identifierAt t (statementStart t c.spans c.unit.ch before)
  word == "class".toList || word == "struct".toList

namespace EnterPlan

/-- a new line with some indentation -/
def newline (indent : Text) : EnterPlan :=
  .insert ('\n' :: indent) 0

/-- behind an opening brace: one level in; between two braces, and where the block has no end yet, another line follows
for the closing brace -/
def afterBrace (t : Text) (c : EnterContext) (cursor statement : Nat) (indent : Text) : EnterPlan :=
  let inner := '\n' :: indent ++ c.unit.text
  let outer := '\n' :: indent
  let isClosed := match closingBrace? t c.spans (cursor - 1) with
    | some close => (t.lineIndent (t.lineOf close)).length == indent.length
    | none => false
  if t.charAt cursor = '}' then .insert (inner ++ outer) (indent.length + 1)
  else if isClosed then .insert inner 0
  else
    let closer := if c.semicolon && opensRecord t c statement then ['}', ';'] else ['}']
    .insert (inner ++ outer ++ closer) (indent.length + 1 + closer.length)

/-- behind an open bracket: the column behind it -/
def alignTo (t : Text) (bracket : Nat) : EnterPlan :=
  let line := t.lineOf bracket
  newline (t.lineIndent line ++ List.replicate (bracket - t.lineIndentEnd line + 1) ' ')

/-- behind a label, if it stands in a block: one level in, unless it is one level in already;
then the label moves out -/
def afterLabel? (t : Text) (c : EnterContext) (cursor : Nat) (indent : Text) : Option EnterPlan :=
  match openingBrace? t c.spans (cursor - 1) with
  | none => none
  | some opener =>
    let block := statementStart t c.spans c.unit.ch (opener + 1)
    let start := t.lineStart (t.lineOf cursor)
    if indent.length != (t.lineIndent (t.lineOf block)).length + c.unit.width
      then some (newline (indent ++ c.unit.text))
    else if (t.slice start (start + c.unit.width)).allBlank then
      some (.dedent start (start + c.unit.width) ('\n' :: indent))
    else none

/-- behind the one statement of a head without a brace: the head's indentation -/
def afterHeadless? (t : Text) (c : EnterContext) (line : Nat) (indent : Text) : Option EnterPlan :=
  if line > 0 && indent.length ≥ c.unit.width then
    let above := t.lineText (line - 1)
    if (LineShape.ofLine above).isHeadless then some (newline above.indentation) else none
  else none

/-- what Enter does at a cursor -/
def make (t : Text) (c : EnterContext) (cursor : Nat) : EnterPlan :=
  let statement := statementStart t c.spans c.unit.ch cursor
  let indent := t.lineIndent (t.lineOf statement)
  let previous := t.charAt (cursor - 1)
  if previous = '{' && cursor > 0 then afterBrace t c cursor statement indent
  else match openBracket? t c.spans cursor statement with
    | some bracket => alignTo t bracket
    | none =>
      let line := t.lineOf cursor
      if (LineShape.ofLine (t.slice (t.lineStart line) cursor)).isHeadless then newline (indent ++ c.unit.text)
      else
        let special :=
          if previous = ';' then afterHeadless? t c line indent
          else if previous = ':' then afterLabel? t c cursor indent
          else none
        special.getD (newline indent)

/-- carry the plan out -/
def apply (b : Buffer) : EnterPlan → Buffer
  | .insert t back =>
    let b := b.insertAtCursor t
    b.placeCursor (b.cursor - back)
  | .dedent start stop t => (b.erase start stop).insertAtCursor t

end EnterPlan

/-- Enter in a language with braces -/
def Buffer.bracketEnter (b : Buffer) (c : EnterContext) : Buffer :=
  let b := b.trimAroundCursor
  (EnterPlan.make b.text c b.cursor).apply b

end CodeEditor
