import CodeEditor.Buffer.Basic
import CodeEditor.Cleanup
import CodeEditor.Comment
import CodeEditor.Config.Basic
import CodeEditor.Indent.Inference
import CodeEditor.Indent.Reindent
import CodeEditor.Paste
import CodeEditor.Search
import CodeEditor.Text.LineEnding
import CodeEditor.Timer
/-!
A session: one open text with its language, indent unit and configuration.

Opening normalises line ends, remembers which ones to write, and infers the indent unit if configured. Every operation
that edits the text is one undo group. Comment and string spans come from the classifier of the session and are kept
until the text changes (`Session.sync`); the revision of the buffer tells.
-/

namespace CodeEditor

/-- a text being edited in its language -/
structure Session where
  buffer : Buffer
  language : Language
  unit : IndentUnit
  config : Config
  lineEnding : LineEnding
  /-- what finds comments and strings in a text -/
  classifier : Option (Text → Spans)
  /-- the spans found last -/
  spans : Spans
  /-- the revision they were found in -/
  classified : Option Nat
  query : Option Query
  idle : Timer
  /-- cursor and revision at the last poll -/
  polled : Option (Nat × Nat)

namespace Session

/-- the unit of a text in a language: inferred if configured and possible, else the configured one -/
def openingUnit (t : Text) (l : Language) (c : Config) : IndentUnit :=
  if c.inferUnit then ((inferStyle t l).unit?).getD c.indentUnit else c.indentUnit

/-- open a text -/
def ofText (t : Text) (l : Language) (c : Config) : Session :=
  let normalized := t.normalizeNewlines
  { buffer := Buffer.ofText normalized
    language := l
    unit := openingUnit normalized l c
    config := c
    lineEnding := LineEnding.detect t
    classifier := none
    spans := Spans.empty
    classified := none
    query := none
    idle := Timer.ofDelay c.idleDelay
    polled := none }

/-- open the content of a file, whose name tells the language; `none` stands for a file that cannot be read -/
def ofFile (path : Text) (content : Option Text) (c : Config) : Except Error Session :=
  match content with
  | none => .error .unreadable
  | some t => .ok (ofText t (Language.ofId (Language.guess? path)) c)

/-- attach a classifier -/
def withClassifier (s : Session) (classify : Text → Spans) : Session :=
  { s with classifier := some classify, classified := none }

/-- the text -/
def text (s : Session) : Text :=
  s.buffer.text

/-- change the buffer -/
def mapBuffer (s : Session) (f : Buffer → Buffer) : Session :=
  { s with buffer := f s.buffer }

/-- change the buffer in one undo group -/
def grouped (s : Session) (f : Buffer → Buffer) : Session :=
  s.mapBuffer (Buffer.grouped f)

/-- change the buffer in one undo group, with a result -/
def groupedWith {α : Type} (s : Session) (f : Buffer → α × Buffer) : α × Session :=
  let (result, b) := f s.buffer.openGroup
  (result, { s with buffer := b.closeGroup })

/-- find the spans of the text again, if it has changed since they were found -/
def sync (s : Session) : Session :=
  match s.classifier with
  | none => s
  | some classify =>
    if s.classified = some s.buffer.revision then s
    else { s with spans := classify s.text, classified := some s.buffer.revision }

/-! ## Editing -/

/-- paste a text at the cursor -/
def paste (s : Session) (t : Text) : PasteMode × Session :=
  s.groupedWith fun b => b.paste t s.unit

/-- comment or uncomment the selected lines, if the language has line comments -/
def toggleComments (s : Session) : CommentToggle × Session :=
  match s.language.lineComment? with
  | none => (.unchanged, s)
  | some mark => s.groupedWith fun b => b.toggleComments mark

/-- indent every line by its depth, in a language with braces; the number of changed lines comes with it -/
def reindent (s : Session) : Nat × Session :=
  if !s.language.isBracket then (0, s)
  else
    let s := s.sync
    s.groupedWith fun b => b.reindent s.spans s.unit

/-- infer the indent unit again; if that fails it stays -/
def inferUnit (s : Session) : Option IndentUnit × Session :=
  match (inferStyle s.text s.language).unit? with
  | none => (none, s)
  | some unit => (some unit, { s with unit })

/-- clean whitespace; the number of trimmed lines comes with it -/
def cleanup (s : Session) : Nat × Session :=
  s.groupedWith Buffer.cleanup

/-- the text to write to disk, whitespace cleaned before if configured -/
def prepareForSave (s : Session) : Text × Session :=
  let s := if s.config.cleanupOnSave then s.cleanup.2 else s
  (s.lineEnding.write s.text, s)

/-! ## Cursor and selection -/

/-- extend the selection to the identifiers at its ends -/
def selectWord (s : Session) : Session :=
  let b := s.buffer
  s.mapBuffer fun _ =>
    b.select (identifierEnd b.text b.selectionEnd) (identifierStart b.text b.selectionStart)

/-- place the cursor at a line and column, both clamped -/
def placeAtLine (s : Session) (line column : Nat) : Session :=
  s.mapBuffer fun b => b.placeCursor (b.text.offsetOf ⟨min line (b.text.lineCount - 1), column⟩)

/-- place the cursor at a position whose line must exist -/
def placeAt (s : Session) (p : Position) : Except Error Session :=
  let count := s.text.lineCount
  if count ≤ p.line then .error (.lineOutOfRange p.line count) else .ok (s.placeAtLine p.line p.column)

/-! ## Braces -/

/-- the partner of a brace at an offset outside comments and strings -/
def partnerAt? (s : Session) (offset : Nat) : Option Nat :=
  if s.spans.covers offset then none
  else if s.text.charAt offset = '{' then closingBrace? s.text s.spans offset
  else if s.text.charAt offset = '}' then openingBrace? s.text s.spans offset
  else none

/-- the brace at the cursor and its partner, or else the one just before the cursor -/
def bracketPair? (s : Session) : Option (Nat × Nat) :=
  let pairAt (offset : Nat) := (s.partnerAt? offset).map fun partner => (offset, partner)
  let c := s.buffer.cursor
  pairAt c <|> (if c = 0 then none else pairAt (c - 1))

/-- the pair of braces at the cursor -/
def matchingBracket (s : Session) : Option (Nat × Nat) × Session :=
  let s := s.sync
  (s.bracketPair?, s)

/-- look at the session at a clock reading. Once cursor and text have been left alone for the configured delay, the pair
of braces at the cursor is reported, once -/
def poll (s : Session) (now : Nat) : Option (Nat × Nat) × Session :=
  let state := (s.buffer.cursor, s.buffer.revision)
  if s.polled != some state then (none, { s with polled := some state, idle := s.idle.schedule now })
  else
    let (due, idle) := s.idle.fireIfDue now
    let s := { s with idle }
    if due then s.matchingBracket else (none, s)

/-- the display of a session -/
def display (s : Session) : Text :=
  let id := match s.language.id with
    | none => "None".toList
    | some id => "Some(".toList ++ Quoted.text id.toList ++ [')']
  let position := s.buffer.cursorPosition
  "SourceSession \x7b language: ".toList ++ id ++
    ", indent: IndentUnit \x7b ch: ".toList ++ Quoted.char s.unit.ch ++
    ", width: ".toList ++ Text.ofNat s.unit.width ++
    " \x7d, chars: ".toList ++ Text.ofNat s.buffer.length ++
    ", cursor: Position \x7b line: ".toList ++ Text.ofNat position.line ++
    ", column: ".toList ++ Text.ofNat position.column ++
    " \x7d, has_classifier: ".toList ++ (if s.classifier.isSome then "true" else "false").toList ++ " \x7d".toList

end Session

end CodeEditor
