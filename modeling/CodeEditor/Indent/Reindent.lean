import CodeEditor.Buffer.Basic
import CodeEditor.Indent.LineShape
import CodeEditor.Indent.Unit
import CodeEditor.Scan
/-!
Indentation of a whole text from its brace depth.

Each line's leading blanks are computed from the depth at its start (`BlockDepth.level`): a line that starts with
`}` is one level out, the body of a head without a brace is one level in per head. Three kinds of lines keep their
blanks: those that continue an open parenthesis or square bracket, those that continue a comment or string, and
those that start with `#`.

`planReindent` says which lines change and how; `reindent` carries the plan out from the last line to the first, so that
line numbers stay valid.
-/

namespace CodeEditor

/-- nesting at the start of a line -/
structure BlockDepth where
  braces : Int
  brackets : Int
  /-- heads directly above that wait for their body -/
  heads : Nat
  deriving DecidableEq, Repr

namespace BlockDepth

/-- the level of a line that starts with `first` -/
def level (d : BlockDepth) (first : Char) : Nat :=
  (if first = '}' then d.braces - 1 else if first = '{' then d.braces else d.braces + d.heads).toNat

/-- read one character of a line, with its offset; the flag says whether a single quote is open on the line -/
def read (t : Text) (spans : Spans) (state : BlockDepth × Bool) (offset : Nat) : BlockDepth × Bool :=
  let d := state.1
  if spans.covers offset then state
  else
    let c := t.charAt offset
    if c = '\'' then (if quoteToggles t offset then (d, !state.2) else state)
    else if state.2 then state
    else if c = '{' then ({ d with braces := d.braces + 1 }, false)
    else if c = '}' then ({ d with braces := d.braces - 1 }, false)
    else if c = '(' || c = '[' then ({ d with brackets := d.brackets + 1 }, false)
    else if c = ')' || c = ']' then ({ d with brackets := d.brackets - 1 }, false)
    else state

end BlockDepth

/-- new blanks of a line -/
structure LineIndent where
  line : Nat
  indent : Text
  deriving DecidableEq, Repr

/-- the new blanks of one line, if they differ, and the nesting behind it -/
def planLine (t : Text) (spans : Spans) (unit : IndentUnit) (d : BlockDepth) (line : Nat) :
    Option LineIndent × BlockDepth :=
  let start := t.lineStart line
  let stop := t.lineEnd line
  let indentEnd := t.lineIndentEnd line
  let isPlain := indentEnd != stop && !(start > 0 && spans.covers (start - 1))
  let first := t.charAt indentEnd
  let target := unit.levels (d.level first)
  let changes := isPlain && d.brackets ≤ 0 && first != '#' && t.slice start indentEnd != target
  let behind := ((List.range' indentEnd (stop - indentEnd)).foldl (BlockDepth.read t spans) (d, false)).1
  let heads :=
    if isPlain && !spans.covers indentEnd then
      if (LineShape.ofLine (t.lineText line)).isHeadless then d.heads + 1 else 0
    else d.heads
  (if changes then some ⟨line, target⟩ else none, { behind with heads })

/-- the plan for a list of lines, each with the nesting behind the one before it -/
def planLines (t : Text) (spans : Spans) (unit : IndentUnit) (d : BlockDepth) : List Nat → List LineIndent
  | [] => []
  | line :: rest =>
    match planLine t spans unit d line with
    | (some change, d) => change :: planLines t spans unit d rest
    | (none, d) => planLines t spans unit d rest

/-- every line whose leading blanks would change, with the new blanks -/
def planReindent (t : Text) (spans : Spans) (unit : IndentUnit) : List LineIndent :=
  planLines t spans unit ⟨0, 0, 0⟩ (List.range t.lineCount)

namespace Buffer

/-- give one line new leading blanks -/
def setIndent (b : Buffer) (change : LineIndent) : Buffer :=
  let start := b.text.lineStart change.line
  (b.erase start (b.text.lineIndentEnd change.line)).insert start change.indent

/-- carry out a plan, the last line first -/
def setIndents (b : Buffer) (plan : List LineIndent) : Buffer :=
  plan.foldr (fun change b => b.setIndent change) b

/-- indent every line by its depth; the number of changed lines comes with the buffer -/
def reindent (b : Buffer) (spans : Spans) (unit : IndentUnit) : Nat × Buffer :=
  let plan := planReindent b.text spans unit
  (plan.length, b.setIndents plan)

end Buffer

end CodeEditor
