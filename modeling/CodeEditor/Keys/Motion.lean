import CodeEditor.Buffer.Basic
/-!
Smart cursor motion.

Home goes to the first character of the line behind its blanks, and from there to the line start; End goes to the last
character before trailing blanks, and from there to the line end. Paragraphs are runs of lines that are not blank;
moving by paragraph goes to the blank line behind this one, or to the start of the one above.
-/

namespace CodeEditor

namespace Buffer

/-- where Home goes -/
def homeTarget (b : Buffer) : Nat :=
  let start := b.text.lineStart b.cursorLine
  let first := b.text.lineIndentEnd b.cursorLine
  if b.cursor > first || b.cursor = start then first else start

/-- where End goes -/
def endTarget (b : Buffer) : Nat :=
  let contentEnd := b.text.lineStart b.cursorLine + (b.text.lineText b.cursorLine).trimEnd.length
  if b.cursor = contentEnd then b.text.lineEnd b.cursorLine else contentEnd

end Buffer

/-! ## Paragraphs -/

/-- what a walk over lines has seen: whether the current line is blank so far, and whether there was any text -/
structure ParagraphScan where
  blankLine : Bool
  textFound : Bool
  deriving DecidableEq, Repr

namespace ParagraphScan

/-- nothing seen -/
def initial : ParagraphScan :=
  ⟨false, false⟩

/-- read the character at an offset; `atEdge` says whether the walk enters a line there -/
def read (t : Text) (s : ParagraphScan) (atEdge : Bool) (offset : Nat) : ParagraphScan :=
  if t.endsLine offset || isBlank (t.charAt offset) then { s with blankLine := s.blankLine || atEdge }
  else ⟨false, true⟩

/-- a blank line behind some text -/
def isBoundary (s : ParagraphScan) : Bool :=
  s.blankLine && s.textFound

end ParagraphScan

/-- walk forward over offsets to the end of the first blank line behind some text, or to the end of the text -/
def paragraphEnd (t : Text) (s : ParagraphScan) : List Nat → Nat
  | [] => t.length
  | offset :: rest =>
    let s := s.read t (t.startsLine offset) offset
    if s.isBoundary && t.endsLine offset then offset else paragraphEnd t s rest

/-- walk backward from an offset to the start of the first blank line before some text, or to the start of the text; the
flag says whether the walk ended on a blank line -/
def paragraphStart (t : Text) (s : ParagraphScan) : Nat → Bool × Nat
  | 0 => ((s.read t (t.endsLine 0) 0).blankLine, 0)
  | offset + 1 =>
    let s := s.read t (t.endsLine (offset + 1)) (offset + 1)
    if s.isBoundary && t.startsLine (offset + 1) then (s.blankLine, offset + 1) else paragraphStart t s offset

/-- start of the first blank line behind some text, from the line of an offset on -/
def nextParagraph (t : Text) (offset : Nat) : Nat :=
  let start := t.lineStart (t.lineOf offset)
  t.lineStart (t.lineOf (paragraphEnd t .initial (List.range' start (t.length - start))))

/-- start of the paragraph above the line of an offset -/
def previousParagraph (t : Text) (offset : Nat) : Nat :=
  match t.lineStart (t.lineOf offset) with
  | 0 => 0
  | before + 1 =>
    match paragraphStart t .initial before with
    | (true, stop) => min (t.lineEnd (t.lineOf stop) + 1) t.length
    | (false, stop) => stop

namespace Buffer

/-- move by a paragraph; `extend` keeps the other end of the selection -/
def moveParagraph (b : Buffer) (down extend : Bool) : Buffer :=
  let target := if down then nextParagraph b.text b.cursor else previousParagraph b.text b.cursor
  if extend then b.select target b.marks.bound else b.placeCursor target

end Buffer

end CodeEditor
