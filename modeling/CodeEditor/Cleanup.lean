import CodeEditor.Buffer.Basic
/-!
Whitespace cleanup: no line ends in blanks, and a text that is not empty ends in an LF.
-/

namespace CodeEditor.Buffer

/-- take the trailing blanks of one line away; the flag says whether there were any -/
def trimLine (b : Buffer) (line : Nat) : Bool × Buffer :=
  let text := b.text.lineText line
  let kept := text.trimEnd.length
  if kept = text.length then (false, b)
  else
    let start := b.text.lineStart line
    (true, b.erase (start + kept) (start + text.length))

/-- trim lines one after another and count those that lost blanks -/
def trimLines (b : Buffer) : List Nat → Nat × Buffer
  | [] => (0, b)
  | line :: rest =>
    let (trimmed, b) := b.trimLine line
    let (count, b) := b.trimLines rest
    (if trimmed then count + 1 else count, b)

/-- add the LF that a text has to end in -/
def endWithNewline (b : Buffer) : Buffer :=
  if b.text.startsLine b.length then b else b.insert b.length ['\n']

/-- clean the whole text; the number of trimmed lines comes with the buffer -/
def cleanup (b : Buffer) : Nat × Buffer :=
  let (count, b) := b.trimLines (List.range b.text.lineCount)
  (count, b.endWithNewline)

end CodeEditor.Buffer
