import CodeEditor.Text.Basic
/-!
Prompts with a history.

A prompt is one line of input with a placeholder. Texts that are confirmed go into a history kept per
placeholder, newest first, so prompts of one placeholder share theirs. The history store is a value that the
operations take and give back.

Going up shows older texts and stops at the oldest, going down shows newer ones and stops at the newest. The first step
up skips the newest text if the prompt already shows it.
-/

namespace CodeEditor

/-- the confirmed texts of each placeholder, newest first -/
structure HistoryStore where
  lists : List (Text × List Text)
  deriving DecidableEq, Repr

namespace HistoryStore

/-- nothing confirmed yet -/
def empty : HistoryStore :=
  ⟨[]⟩

/-- the texts of a key, newest first -/
def entries (s : HistoryStore) (key : Text) : List Text :=
  (s.lists.lookup key).getD []

/-- put a list in place of the one of a key -/
def replace (key : Text) (entries : List Text) : List (Text × List Text) → List (Text × List Text)
  | [] => [(key, entries)]
  | (k, old) :: rest => if k = key then (k, entries) :: rest else (k, old) :: replace key entries rest

/-- add a text as the newest of its key, unless it already is -/
def record (s : HistoryStore) (key text : Text) : HistoryStore :=
  if (s.entries key).head? = some text then s else ⟨replace key (text :: s.entries key) s.lists⟩

end HistoryStore

/-- one line of input -/
structure Prompt where
  placeholder : Text
  text : Text
  /-- which entry of the history is shown, if one is -/
  shown : Option Nat
  deriving DecidableEq, Repr

namespace Prompt

/-- a prompt that shows `text` -/
def make (placeholder text : Text) : Prompt :=
  ⟨placeholder, text, none⟩

/-- replace the text -/
def setText (p : Prompt) (text : Text) : Prompt :=
  { p with text }

/-- add a character -/
def pushChar (p : Prompt) (c : Char) : Prompt :=
  { p with text := p.text ++ [c] }

/-- take the last character away and give it back -/
def popChar (p : Prompt) : Option Char × Prompt :=
  (p.text.getLast?, { p with text := p.text.dropLast })

/-- confirm the text -/
def confirm (p : Prompt) (s : HistoryStore) : Prompt × HistoryStore :=
  ({ p with shown := none }, s.record p.placeholder p.text)

/-- show an older text; `none` if there is no history -/
def up? (p : Prompt) (s : HistoryStore) : Option Prompt :=
  match s.entries p.placeholder with
  | [] => none
  | newest :: older =>
    let next := match p.shown with
      | some i => i + 1
      | none => if newest = p.text then 1 else 0
    let i := min next older.length
    some { p with text := (newest :: older).getD i newest, shown := some i }

/-- show a newer text; `none` if no entry of the history is shown -/
def down? (p : Prompt) (s : HistoryStore) : Option Prompt :=
  match p.shown with
  | none => none
  | some i => ((s.entries p.placeholder)[i - 1]?).map fun text => { p with text, shown := some (i - 1) }

end Prompt

end CodeEditor
