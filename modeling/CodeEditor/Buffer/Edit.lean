import CodeEditor.Text.Basic
/-!
One edit of a text and the marks that follow it.

An edit replaces the text `removed` that stands at `start` by `inserted`. It knows both, so it has an inverse, and
undoing is applying inverses in the opposite order. The buffer makes edits of two forms only, a pure insertion and a
pure removal; `Edit.shift` says where a mark goes under each of them.
-/

namespace CodeEditor

/-- at `start`, `removed` gives way to `inserted` -/
structure Edit where
  start : Nat
  removed : Text
  inserted : Text
  deriving DecidableEq, Repr

namespace Edit

/-- the text after the edit -/
def apply (e : Edit) (t : Text) : Text :=
  t.take e.start ++ e.inserted ++ t.drop (e.start + e.removed.length)

/-- the edit that takes it back -/
def inverse (e : Edit) : Edit :=
  ⟨e.start, e.inserted, e.removed⟩

/-- where a mark goes: a removal pulls marks inside it to its start and marks behind it left, an insertion pushes marks
at or behind it right -/
def shift (e : Edit) (mark : Nat) : Nat :=
  if e.removed.length > 0 then
    if mark > e.start + e.removed.length then mark - e.removed.length
    else if mark > e.start then e.start
    else mark
  else if mark ≥ e.start then mark + e.inserted.length
  else mark

end Edit

/-- the cursor and the other end of the selection; without a selection both are the same -/
structure Marks where
  insert : Nat
  bound : Nat
  deriving DecidableEq, Repr

namespace Marks

/-- both marks under one map -/
def map (f : Nat → Nat) (m : Marks) : Marks :=
  ⟨f m.insert, f m.bound⟩

/-- both marks at one offset -/
def both (offset : Nat) : Marks :=
  ⟨offset, offset⟩

end Marks

end CodeEditor
