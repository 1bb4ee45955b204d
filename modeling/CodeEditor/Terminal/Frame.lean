import CodeEditor.Terminal.App
import CodeEditor.Terminal.Cell
/-!
Drawing the editor.

A frame is a grid of cells. The last row holds the shortcuts and the one before it the status line; the rest is the text
in a border, with the file name in the upper edge. Comments, strings, the pair of braces and the selection each add to
the look of a character; a tab is drawn as a space.

The size of the frame sets how many lines are shown, so drawing also moves the view (`App.resize`).
-/

namespace CodeEditor

/-- a drawn editor: its rows, and where the terminal's cursor stands -/
structure Frame where
  rows : List Row
  cursor : Option (Nat × Nat)
  deriving DecidableEq, Repr

namespace Frame

/-- a row between two edges; a row of one cell has only the left one -/
def edged (width : Nat) (left right : Char) (inner : Row) : Row :=
  match width with
  | 0 => []
  | 1 => [⟨[left], Style.plain⟩]
  | _ => ⟨[left], Style.plain⟩ :: inner ++ [⟨[right], Style.plain⟩]

/-- a horizontal line -/
def rule (width : Nat) : Row :=
  List.replicate width ⟨['─'], Style.plain⟩

/-- the cells of a line of a title, as far as they fit -/
def titleCells (room : Nat) (line : Text) : Row :=
  let width := min room (textWidth line)
  let drawn := Glyph.layOut Style.plain width (Glyph.absorb (Glyph.ofText Style.plain line))
  drawn ++ rule (width - drawn.length)

/-- the lines of a title, which are drawn side by side -/
def titleLines (title : Text) : List Text :=
  (title.splitOn '\n').map fun line => if line.getLast? = some '\r' then line.dropLast else line

/-- the upper edge with a title from its left end on -/
def titled (width : Nat) (title : Text) : Row :=
  let inner := width - 2
  let drawn := (titleLines title).foldl (fun row line => row ++ titleCells (inner - row.length) line) []
  edged width '┌' '┐' (drawn ++ rule (inner - drawn.length))

end Frame

namespace App

/-- the look of the status line -/
def statusStyle : Style :=
  ⟨.white, .darkGray, true, false, false⟩

/-- the look of the shortcuts -/
def shortcutStyle : Style :=
  ⟨.white, .blue, false, false, false⟩

/-- the look of a character that lies in a comment or string, or in neither -/
def kindStyle : Option SpanKind → Style
  | some .comment => { Style.plain with foreground := .darkGray, italic := true }
  | some .string => { Style.plain with foreground := .green }
  | none => Style.plain

/-- the look of the character at an offset -/
def styleAt (a : App) (offset : Nat) : Style :=
  let b := a.session.buffer
  let style := kindStyle (a.session.spans.kindAt offset)
  let isBrace := a.bracketPair.any fun pair => pair.1 == offset || pair.2 == offset
  let style := if isBrace then { style with foreground := .yellow, bold := true } else style
  if b.selectionStart ≤ offset && offset < b.selectionEnd then { style with reversed := true } else style

/-- the glyphs of a line, of its first `width` characters at most -/
def lineGlyphs (a : App) (width line : Nat) : List Glyph :=
  let start := a.session.text.lineStart line
  let chars := (a.session.text.lineText line).take width
  (chars.zipIdx.filter fun (c, _) => c == '\t' || !isControl c).map fun (c, column) =>
    Glyph.ofChar (a.styleAt (start + column)) (if c = '\t' then ' ' else c)

/-- the lines shown -/
def visibleLines (a : App) : List Nat :=
  let last := min (a.scrollTop + a.viewHeight) a.session.text.lineCount
  List.range' a.scrollTop (last - a.scrollTop)

/-- the title over the text -/
def title (a : App) : Text :=
  ' ' :: a.file.path ++ (if a.isModified then " * " else " ").toList

/-- the rows of the text in its border -/
def editorRows (a : App) (width : Nat) : List Row :=
  let inner := width - 2
  let lines := a.visibleLines.map fun line => Glyph.row Style.plain inner (a.lineGlyphs inner line)
  let rows := lines ++ List.replicate (a.viewHeight - lines.length) (Row.blank inner Style.plain)
  Frame.titled width a.title :: rows.map (Frame.edged width '│' '│') ++ [Frame.edged width '└' '┘' (Frame.rule inner)]

/-- the text of the status line -/
def statusText (a : App) : Text :=
  match a.mode with
  | .find =>
    "Find [".toList ++ a.optionsLabel ++ "] > ".toList ++ a.findPrompt.text ++
      "  (Enter=Next, Up/Down=History, Esc=Cancel, Alt+C/R=Options)".toList
  | .replaceFind =>
    "Replace: Find [".toList ++ a.optionsLabel ++ "] > ".toList ++ a.findPrompt.text ++
      "  (Enter=Next, Esc=Cancel, Alt+C/R=Options)".toList
  | .replaceWith =>
    "Replace: With [".toList ++ a.optionsLabel ++ "] > ".toList ++ a.replacePrompt.text ++
      "  (Enter=Done, Esc=Cancel)".toList
  | .normal =>
    if !a.status.isEmpty then a.status
    else
      let b := a.session.buffer
      let position := b.cursorPosition
      "行:".toList ++ number (position.line + 1) ++ " 列:".toList ++ number (position.column + 1) ++
        " | 缩进:".toList ++ a.session.unit.display ++
        " | 语言:".toList ++ (a.session.language.id.getD "text").toList ++
        " | 总行数:".toList ++ number b.text.lineCount ++ " 字符数:".toList ++ number b.length ++
        " | 版本:".toList ++ number b.revision

/-- the text of the last row -/
def shortcutText (a : App) : Text :=
  if a.confirmQuit then "Y:保存并退出  N:不保存退出  Esc:取消".toList
  else ("Ctrl-S:保存  Ctrl-X:退出  Ctrl-Z/Y:撤销/重做  Ctrl-C/V:复制/粘贴  Ctrl-K:注释  " ++
    "Ctrl-G:重新缩进  Ctrl-F/H:查找/替换  F3:下一个  Shift-F3:上一个  Ctrl-R/A:替换/全部").toList

/-- a row of one text; of a text with several lines the first is shown -/
def textRow (style : Style) (width : Nat) (t : Text) : Row :=
  Glyph.row style width (Glyph.ofText style (t.takeWhile (· != '\n')))

/-- where the terminal's cursor stands: in the text, unless a prompt is open or the line of the cursor is not shown -/
def cursorCell (a : App) (width : Nat) : Option (Nat × Nat) :=
  let position := a.session.buffer.cursorPosition
  let last := min (a.scrollTop + a.viewHeight) a.session.text.lineCount
  if a.mode = .normal && a.scrollTop ≤ position.line && position.line < max last (a.scrollTop + 1) then
    some (1 + min position.column (width - 2), 1 + (position.line - a.scrollTop))
  else none

/-- fit the view to a frame of some height and find the spans of the text -/
def resize (a : App) (height : Nat) : App :=
  let a := ({ a with viewHeight := height - 4 }).scrollToCursor
  { a with session := a.session.sync }

/-- draw the editor, fitted to the height before -/
def frame (a : App) (width : Nat) : Frame :=
  { rows := a.editorRows width ++
      [textRow statusStyle width a.statusText, textRow shortcutStyle width a.shortcutText]
    cursor := a.cursorCell width }

/-- fit the view to a frame and draw it -/
def render (a : App) (width height : Nat) : Frame × App :=
  let a := a.resize height
  (a.frame width, a)

/-! ## Runs -/

/-- what happens to the editor -/
inductive Event where
  | press (key : TerminalKey) (mods : Modifiers)
  | paste (t : Text)
  | poll (now : Nat)
  | render (width height : Nat)
  deriving DecidableEq, Repr

/-- one event -/
def step (a : App) : Event → App
  | .press key mods => a.pressKey key mods
  | .paste t => a.paste t
  | .poll now => a.poll now
  | .render width height => (a.render width height).2

/-- a run of events -/
def run (a : App) (events : List Event) : App :=
  events.foldl step a

end App

end CodeEditor
