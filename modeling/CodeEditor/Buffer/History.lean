import CodeEditor.Buffer.Edit
/-!
Undo history.

A step is a group of edits with the marks before and after it. Edits between the outermost opening and closing of a
group form one step; an edit outside every group is a step of its own. Both stacks are lists with the next step at the
head, and the edits of a step are kept newest first.

Closing a step with edits empties the redo stack, and the undo stack keeps the newest `History.limit` steps.
-/

namespace CodeEditor

/-- a group of edits, newest first, with the marks around it -/
structure Step where
  edits : List Edit
  before : Marks
  after : Marks
  deriving DecidableEq, Repr

namespace Step

/-- the text with every edit taken back, newest first -/
def undo (s : Step) (t : Text) : Text :=
  s.edits.foldl (fun t e => e.inverse.apply t) t

/-- the text with every edit made again, oldest first -/
def redo (s : Step) (t : Text) : Text :=
  s.edits.foldr (fun e t => e.apply t) t

end Step

/-- steps that can be undone and redone, the group being recorded and how deep groups are nested -/
structure History where
  undoStack : List Step
  redoStack : List Step
  recording : Option Step
  depth : Nat
  deriving DecidableEq, Repr

namespace History

/-- most steps that can be undone -/
def limit : Nat := 1000

/-- nothing done yet -/
def empty : History :=
  ⟨[], [], none, 0⟩

/-- a finished step becomes the next one to undo; a step without edits leaves no trace -/
def push (h : History) (s : Step) : History :=
  if s.edits.isEmpty then h
  else { h with undoStack := (s :: h.undoStack).take limit, redoStack := [] }

/-- open a group; only the outermost one starts to record -/
def openGroup (h : History) (marks : Marks) : History :=
  { h with depth := h.depth + 1, recording := if h.depth = 0 then some ⟨[], marks, marks⟩ else h.recording }

/-- close a group; closing the outermost one finishes the step -/
def closeGroup (h : History) (marks : Marks) : History :=
  match h.depth with
  | 0 => h
  | 1 =>
    match h.recording with
    | none => { h with depth := 0 }
    | some s => ({ h with depth := 0, recording := none }).push { s with after := marks }
  | d + 2 => { h with depth := d + 1 }

/-- close every open group -/
def closeAll (h : History) (marks : Marks) : History :=
  if h.depth = 0 then h else ({ h with depth := 1 }).closeGroup marks

/-- an edit was made: it joins the group being recorded, or is a step of its own -/
def record (h : History) (e : Edit) (before after : Marks) : History :=
  match h.recording with
  | some s => { h with recording := some { s with edits := e :: s.edits } }
  | none => h.push ⟨[e], before, after⟩

end History

end CodeEditor
