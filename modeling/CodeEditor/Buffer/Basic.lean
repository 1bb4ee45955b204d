import CodeEditor.Buffer.History
import CodeEditor.Text.LineBreak
/-!
The text buffer: a text, two marks, the undo history and a counter of changes.

Every offset given to an operation is clamped to the text, so no operation can fail. `Buffer.edit` is the only way the
text changes apart from undo and redo; the marks follow each edit by `Edit.shift`. `Buffer.Op` lists the operations, and
a session is a run of them from a fresh buffer.
-/

namespace CodeEditor

/-- a text being edited -/
structure Buffer where
  text : Text
  marks : Marks
  history : History
  /-- grows by one with every change of the text -/
  revision : Nat
  deriving DecidableEq, Repr

namespace Buffer

/-- a buffer that holds `t`, with the cursor at its start -/
def ofText (t : Text) : Buffer :=
  ⟨t, Marks.both 0, History.empty, 0⟩

/-- number of characters -/
def length (b : Buffer) : Nat :=
  b.text.length

/-- an offset, or the end if it lies past it -/
def clamp (b : Buffer) (offset : Nat) : Nat :=
  min offset b.length

/-! ## Marks -/

/-- the cursor -/
def cursor (b : Buffer) : Nat :=
  b.marks.insert

/-- the line of the cursor -/
def cursorLine (b : Buffer) : Nat :=
  b.text.lineOf b.cursor

/-- line and column of the cursor -/
def cursorPosition (b : Buffer) : Position :=
  b.text.positionOf b.cursor

/-- the two marks differ -/
def hasSelection (b : Buffer) : Bool :=
  b.marks.insert != b.marks.bound

/-- where the selection starts -/
def selectionStart (b : Buffer) : Nat :=
  min b.marks.insert b.marks.bound

/-- where the selection ends -/
def selectionEnd (b : Buffer) : Nat :=
  max b.marks.insert b.marks.bound

/-- both marks go to `offset` -/
def placeCursor (b : Buffer) (offset : Nat) : Buffer :=
  { b with marks := Marks.both (b.clamp offset) }

/-- the cursor goes to `insert` and the other mark to `bound` -/
def select (b : Buffer) (insert bound : Nat) : Buffer :=
  { b with marks := ⟨b.clamp insert, b.clamp bound⟩ }

/-- the cursor goes to `offset`, the other mark stays -/
def moveInsert (b : Buffer) (offset : Nat) : Buffer :=
  { b with marks := { b.marks with insert := b.clamp offset } }

/-- the cursor goes to `target`; `extend` keeps the other mark -/
def moveCursor (b : Buffer) (target : Nat) (extend : Bool) : Buffer :=
  if extend then b.moveInsert target else b.placeCursor target

/-! ## Edits -/

/-- make an edit: the marks follow it and the history records it -/
def edit (b : Buffer) (e : Edit) : Buffer :=
  let marks := b.marks.map e.shift
  { text := e.apply b.text, marks, history := b.history.record e b.marks marks, revision := b.revision + 1 }

/-- insert `t` at `offset` -/
def insert (b : Buffer) (offset : Nat) (t : Text) : Buffer :=
  if t.isEmpty then b else b.edit ⟨b.clamp offset, [], t⟩

/-- insert `t` at the cursor, which ends up behind it -/
def insertAtCursor (b : Buffer) (t : Text) : Buffer :=
  b.insert b.cursor t

/-- remove what lies between two offsets, in either order -/
def erase (b : Buffer) (x y : Nat) : Buffer :=
  let start := b.clamp (min x y)
  let stop := b.clamp (max x y)
  if start = stop then b else b.edit ⟨start, b.text.slice start stop, []⟩

/-- remove the selection and clear it -/
def deleteSelection (b : Buffer) : Buffer :=
  if b.hasSelection then (b.erase b.selectionStart b.selectionEnd).placeCursor b.selectionStart else b

/-! ## Groups, undo and redo -/

/-- open an undo group -/
def openGroup (b : Buffer) : Buffer :=
  { b with history := b.history.openGroup b.marks }

/-- close an undo group -/
def closeGroup (b : Buffer) : Buffer :=
  { b with history := b.history.closeGroup b.marks }

/-- run an operation as one undo group -/
def grouped (f : Buffer → Buffer) (b : Buffer) : Buffer :=
  (f b.openGroup).closeGroup

/-- an undo group is open -/
def inGroup (b : Buffer) : Bool :=
  b.history.depth > 0

/-- there is a step to undo -/
def canUndo (b : Buffer) : Bool :=
  !b.history.undoStack.isEmpty

/-- there is a step to redo -/
def canRedo (b : Buffer) : Bool :=
  !b.history.redoStack.isEmpty

/-- take back the newest step, after closing open groups; `none` if there is none -/
def undo? (b : Buffer) : Option Buffer :=
  let h := b.history.closeAll b.marks
  match h.undoStack with
  | [] => none
  | s :: rest => some {
      text := s.undo b.text, marks := s.before, revision := b.revision + 1,
      history := { h with undoStack := rest, redoStack := s :: h.redoStack } }

/-- make the step undone last again, after closing open groups; `none` if there is none -/
def redo? (b : Buffer) : Option Buffer :=
  let h := b.history.closeAll b.marks
  match h.redoStack with
  | [] => none
  | s :: rest => some {
      text := s.redo b.text, marks := s.after, revision := b.revision + 1,
      history := { h with undoStack := s :: h.undoStack, redoStack := rest } }

/-- close open groups -/
def settle (b : Buffer) : Buffer :=
  { b with history := b.history.closeAll b.marks }

/-- undo, or only close open groups if there is nothing to undo -/
def undo (b : Buffer) : Buffer :=
  b.undo?.getD b.settle

/-- redo, or only close open groups if there is nothing to redo -/
def redo (b : Buffer) : Buffer :=
  b.redo?.getD b.settle

/-! ## Runs -/

/-- the operations of a buffer -/
inductive Op where
  | insert (offset : Nat) (t : Text)
  | erase (x y : Nat)
  | deleteSelection
  | placeCursor (offset : Nat)
  | select (insert bound : Nat)
  | moveInsert (offset : Nat)
  | openGroup
  | closeGroup
  | undo
  | redo
  deriving DecidableEq, Repr

/-- one operation -/
def step (b : Buffer) : Op → Buffer
  | .insert offset t => b.insert offset t
  | .erase x y => b.erase x y
  | .deleteSelection => b.deleteSelection
  | .placeCursor offset => b.placeCursor offset
  | .select insert bound => b.select insert bound
  | .moveInsert offset => b.moveInsert offset
  | .openGroup => b.openGroup
  | .closeGroup => b.closeGroup
  | .undo => b.undo
  | .redo => b.redo

/-- a run of operations -/
def run (b : Buffer) (ops : List Op) : Buffer :=
  ops.foldl step b

end Buffer

end CodeEditor
