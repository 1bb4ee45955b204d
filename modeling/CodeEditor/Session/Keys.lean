import CodeEditor.Keys.Brace
import CodeEditor.Keys.Default
import CodeEditor.Keys.Deletion
import CodeEditor.Keys.Enter
import CodeEditor.Keys.IndentLines
import CodeEditor.Keys.Motion
import CodeEditor.Session.Basic
/-!
Keys of a session.

`Session.handleKey` does what is special about a key and says whether there was anything; `Session.pressKey` adds
the usual effect where there was not. Moving by paragraph comes first. With a selection, behind a character of a
comment or string, and in languages without braces, only the handling common to all languages is used; else Enter
and the braces have their own.
-/

namespace CodeEditor.Session

/-- what Enter has to know -/
def enterContext (s : Session) : EnterContext :=
  ⟨s.spans, s.unit, s.language.closesRecordsWithSemicolon⟩

/-- run an operation that may decline, in one undo group -/
def tryGrouped (s : Session) (f : Buffer → Bool × Buffer) : KeyOutcome × Session :=
  let (done, s) := s.groupedWith f
  (if done then .handled else .passThrough, s)

/-- keys in every language -/
def handleBasic (s : Session) (key : Key) (mods : Modifiers) : KeyOutcome × Session :=
  let b := s.buffer
  if key = .enter && !b.hasSelection && !b.text.startsLine b.cursor then (.handled, s.grouped Buffer.plainEnter)
  else if key.isUnindent mods then (.handled, s.grouped fun b => b.unindentLines s.unit)
  else if key = .tab then (.handled, s.grouped fun b => b.indentLines s.unit s.config.tabIndentsLine)
  else if key = .backspace && !b.hasSelection then s.tryGrouped Buffer.smartBackspace
  else if key = .delete && !b.hasSelection then s.tryGrouped Buffer.smartDelete
  else if key = .home && !mods.control then (.handled, s.mapBuffer fun b => b.moveCursor b.homeTarget mods.shift)
  else if key = .stop && !mods.control then (.handled, s.mapBuffer fun b => b.moveCursor b.endTarget mods.shift)
  else (.passThrough, s)

/-- keys where blocks stand between braces -/
def handleBracket (s : Session) (key : Key) (mods : Modifiers) : KeyOutcome × Session :=
  if key = .enter && !s.text.startsLine s.buffer.cursor then
    (.handled, s.grouped fun b => b.bracketEnter s.enterContext)
  else if key = .char '}' then (.handled, s.grouped fun b => b.closeBrace s.unit)
  else if key = .char '{' then
    match s.tryGrouped (·.openBrace s.unit) with
    | (.handled, s) => (.handled, s)
    | (.passThrough, s) => s.handleBasic key mods
  else s.handleBasic key mods

/-- the character before the cursor lies in a comment or string -/
def inLiteral (s : Session) : Bool :=
  s.buffer.cursor > 0 && s.spans.covers (s.buffer.cursor - 1)

/-- do what is special about a key -/
def handleKey (s : Session) (key : Key) (mods : Modifiers) : KeyOutcome × Session :=
  let s := s.sync
  if mods.control && (key = .up || key = .down) then
    (.handled, s.mapBuffer fun b => b.moveParagraph (key == .down) mods.shift)
  else if s.buffer.hasSelection || s.inLiteral || !s.language.isBracket then s.handleBasic key mods
  else s.handleBracket key mods

/-- press a key -/
def pressKey (s : Session) (key : Key) (mods : Modifiers) : Session :=
  match s.handleKey key mods with
  | (.handled, s) => s
  | (.passThrough, s) => s.grouped fun b => b.defaultKey key mods

/-- press the keys of some characters -/
def typeChars (s : Session) (t : Text) : Session :=
  t.foldl (fun s c => s.pressKey (.char c) .none) s

end CodeEditor.Session
