import CodeEditor.Session.Basic
/-!
Searching and replacing in a session.

The session has at most one active search. Moving to an occurrence selects it, with the cursor behind it. Replacing one
takes the next occurrence, the selected one included, and selects what replaces it.
-/

namespace CodeEditor.Session

/-- set the active search; the number of occurrences comes with it. An empty search text clears it, and one that cannot
be compiled leaves it as it was -/
def setSearch (s : Session) (t : Text) (options : SearchOptions) : Except Error (Nat × Session) :=
  if t.isEmpty then .ok (0, { s with query := none })
  else match Query.make t options with
    | .error e => .error e
    | .ok q => .ok ((q.findAll s.text).length, { s with query := some q })

/-- select an occurrence -/
def selectFound (s : Session) (found : Option Occurrence) : Option Occurrence × Session :=
  match found with
  | none => (none, s)
  | some o => (some o, s.mapBuffer fun b => b.select o.stop o.start)

/-- the occurrence at or behind an offset, around the end -/
def forward? (s : Session) (offset : Nat) : Option Occurrence :=
  s.query.bind fun q => q.findForward? s.text offset

/-- the occurrence before an offset, around the start -/
def backward? (s : Session) (offset : Nat) : Option Occurrence :=
  s.query.bind fun q => q.findBackward? s.text offset

/-- select the next occurrence behind the selection -/
def searchForward (s : Session) : Option Occurrence × Session :=
  s.selectFound (s.forward? s.buffer.selectionEnd)

/-- select the next occurrence before the selection -/
def searchBackward (s : Session) : Option Occurrence × Session :=
  s.selectFound (s.backward? s.buffer.selectionStart)

/-- put a text in place of an occurrence, and select it -/
def replaceFound (s : Session) (found : Option Occurrence) (replacement : Text) : Option Occurrence × Session :=
  match s.query, found with
  | some q, some o =>
    let t := q.expandReplacement s.text o replacement
    let stop := o.start + t.length
    (some ⟨o.start, stop⟩,
      s.grouped fun b => ((b.erase o.start o.stop).insert o.start t).select stop o.start)
  | _, _ => (none, s)

/-- replace the next occurrence, the selected one included -/
def replaceForward (s : Session) (replacement : Text) : Option Occurrence × Session :=
  s.replaceFound (s.forward? s.buffer.selectionStart) replacement

/-- replace the occurrence before, the selected one included -/
def replaceBackward (s : Session) (replacement : Text) : Option Occurrence × Session :=
  s.replaceFound (s.backward? s.buffer.selectionEnd) replacement

/-- replace every occurrence; their number comes with it. The cursor stays where it was -/
def replaceAll (s : Session) (replacement : Text) : Nat × Session :=
  match s.query with
  | none => (0, s)
  | some q =>
    let (replaced, count) := q.replaceAll s.text replacement
    if count = 0 then (0, s)
    else
      let cursor := s.buffer.cursor
      (count, s.grouped fun b => ((b.erase 0 b.length).insert 0 replaced).placeCursor cursor)

end CodeEditor.Session
