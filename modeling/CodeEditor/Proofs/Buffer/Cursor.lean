import CodeEditor.Keys.Default
import CodeEditor.Keys.Motion
import CodeEditor.Proofs.Buffer.Handlers
import CodeEditor.Proofs.Buffer.Plain
import CodeEditor.Proofs.Keys.EnterPlan
import CodeEditor.Proofs.Text.Ink
/-!
The text on both sides of the cursor.

A buffer without a selection is what stands before the cursor and what stands behind it (`At`). Typing adds to the first
of them, the blanks around the cursor go from both (`at_trimAroundCursor`), and at the end of a line of code Enter adds
what its plan says. Down and End go from the end of a line to the end of the next one, if that is no longer.
-/

namespace CodeEditor

namespace Buffer

/-- the cursor, without a selection, stands between two pieces of the text -/
structure At (b : Buffer) (before behind : Text) : Prop where
  text : b.text = before ++ behind
  marks : b.marks = Marks.both before.length

namespace At

variable {b : Buffer} {before behind u : Text}

theorem cursor (h : b.At before behind) : b.cursor = before.length := by
  rw [Buffer.cursor, h.marks]
  rfl

theorem hasSelection (h : b.At before behind) : b.hasSelection = false := by
  rw [Buffer.hasSelection, h.marks]
  simp [Marks.both]

theorem deleteSelection (h : b.At before behind) : b.deleteSelection = b := by
  rw [Buffer.deleteSelection, h.hasSelection, if_neg Bool.false_ne_true]

theorem placeCursor {c : Buffer} (htext : c.text = before ++ behind) :
    (c.placeCursor before.length).At before behind := by
  refine ⟨htext, ?_⟩
  have hclamp : c.clamp before.length = before.length := by
    rw [clamp, length, htext, List.length_append]
    omega
  rw [Buffer.placeCursor, hclamp]

theorem insertAtCursor (h : b.At before behind) (u : Text) : (b.insertAtCursor u).At (before ++ u) behind := by
  rw [Buffer.insertAtCursor, insert, h.cursor]
  split_ifs with hu
  · rw [List.isEmpty_iff.1 hu, List.append_nil]
    exact h
  · have hclamp : b.clamp before.length = before.length := by
      rw [clamp, length, h.text, List.length_append]
      omega
    refine ⟨?_, ?_⟩
    · rw [edit_text, Edit.apply, hclamp, h.text]
      simp
    · rw [edit_marks, hclamp, h.marks]
      simp [Marks.map, Marks.both, Edit.shift]

theorem typeText (h : b.At before behind) (u : Text) : (b.typeText u).At (before ++ u) behind := by
  rw [Buffer.typeText, h.deleteSelection]
  exact h.insertAtCursor u

theorem grouped {f : Buffer → Buffer} (h : b.At before behind) {before' behind' : Text}
    (hf : ∀ c : Buffer, c.At before behind → (f c).At before' behind') : (b.grouped f).At before' behind' := by
  obtain ⟨htext, hmarks⟩ := hf b.openGroup ⟨h.text, h.marks⟩
  exact ⟨htext, hmarks⟩

end At

variable {b : Buffer} {before behind : Text}

theorem marks_of_hasSelection (h : b.hasSelection = false) : b.marks = Marks.both b.cursor := by
  have hsame : b.marks.insert = b.marks.bound := by simpa [hasSelection] using h
  exact congrArg (Marks.mk b.cursor) hsame.symm

/-- a removal moves two marks at one place alike -/
theorem hasSelection_erase (h : b.hasSelection = false) (x y : Nat) : (b.erase x y).hasSelection = false := by
  have hmarks := marks_of_hasSelection h
  simp only [erase]
  split_ifs
  · exact h
  · rw [hasSelection, edit_marks, hmarks]
    simp [Marks.map, Marks.both]

/-- a buffer without a selection is what stands before the cursor and what stands behind it -/
theorem at_cursor (h : b.Within) (hsel : b.hasSelection = false) :
    b.At (b.text.take b.cursor) (b.text.drop b.cursor) := by
  have hlen : (b.text.take b.cursor).length = b.cursor := List.length_take_of_le h.1
  exact ⟨(List.take_append_drop _ _).symm, by rw [hlen, marks_of_hasSelection hsel]⟩

/-- without the blanks around the cursor -/
theorem At.trimmed (h : b.At before behind) :
    let blanks := blanksAround (before ++ behind) before.length
    b.trimAroundCursor.At ((before ++ behind).take blanks.1) ((before ++ behind).drop blanks.2) := by
  intro blanks
  obtain ⟨hstart, hstop, hlen⟩ : blanks.1 ≤ before.length ∧ before.length ≤ blanks.2 ∧
    blanks.2 ≤ (before ++ behind).length :=
    Text.blanksAround_bounds (by rw [List.length_append]; omega)
  have htrim : b.trimAroundCursor = b.erase blanks.1 blanks.2 := by rw [trimAroundCursor_eq, h.text, h.cursor]
  have htext : (b.erase blanks.1 blanks.2).text =
    (before ++ behind).take blanks.1 ++ (before ++ behind).drop blanks.2 := by
    rw [erase_text b (hstart.trans hstop), h.text]
  have hcursor : (b.erase blanks.1 blanks.2).cursor = blanks.1 :=
    erase_cursor b (by rw [h.cursor]; exact hstart) (by rw [h.cursor]; exact hstop) (by rw [h.text]; exact hlen)
  have hbefore : ((before ++ behind).take blanks.1).length = blanks.1 := List.length_take_of_le (by omega)
  have hmarks := marks_of_hasSelection (hasSelection_erase h.hasSelection blanks.1 blanks.2)
  rw [htrim]
  exact ⟨htext, by rw [hmarks, hcursor, hbefore]⟩

/-- trimming takes no character before the cursor that it leaves -/
theorem at_trimAroundCursor (h : b.Within) (hsel : b.hasSelection = false) :
    b.trimAroundCursor.At (b.text.take b.trimAroundCursor.cursor) (b.text.drop (blanksAround b.text b.cursor).2) := by
  have hat := (at_cursor h hsel).trimmed
  have hlen : (b.text.take b.cursor).length = b.cursor := List.length_take_of_le h.1
  rw [List.take_append_drop, hlen] at hat
  have hcursor : b.trimAroundCursor.cursor = (blanksAround b.text b.cursor).1 := by
    have hle : (blanksAround b.text b.cursor).1 ≤ b.cursor := (Text.blanksAround_bounds h.1).1
    rw [hat.cursor, List.length_take_of_le (hle.trans h.1)]
  rw [hcursor]
  exact hat

namespace At

variable {b : Buffer} {before behind u : Text}

/-! ## Enter -/

variable {unit : IndentUnit} {depth : Nat} {a v z : Text} {e : Char}

/-- there are no blanks to trim at the end of a line of code -/
theorem trimAroundCursor (h : b.At (a ++ (unit.levels depth ++ (v ++ [e]))) z)
    (hline : EnterPlan.IsCodeLine unit depth a (v ++ [e]) z) (he : isBlank e = false) : b.trimAroundCursor = b := by
  set u := unit.levels depth ++ (v ++ [e]) with hu
  have htext : b.text = a ++ (u ++ z) := by rw [h.text, List.append_assoc]
  have hcursor : b.cursor = a.length + u.length := by rw [h.cursor, List.length_append]
  have hreverse : u.reverse.takeWhile isBlank = [] := by simp [hu, he]
  have hbefore : Text.slice (a ++ (u ++ z)) a.length (a.length + u.length) = u := Text.slice_piece a u z
  have hbehind : Text.slice (a ++ (u ++ z)) (a.length + u.length) (a.length + u.length) = [] := by
    rw [Text.slice, Nat.sub_self, List.take_zero]
  have hblanks : blanksAround b.text b.cursor = (b.cursor, b.cursor) := by
    rw [htext, hcursor, blanksAround, hline.isLine.lineOf_eq le_rfl, hline.isLine.lineStart_eq,
      hline.isLine.lineEnd_eq, hbefore, hbehind, hreverse]
    simp
  have hnone : b.erase b.cursor b.cursor = b := by simp [erase]
  rw [Buffer.trimAroundCursor, hblanks]
  exact hnone

/-- at the end of a line of code, Enter carries its plan out -/
theorem bracketEnter (h : b.At (a ++ (unit.levels depth ++ (v ++ [e]))) z)
    (hline : EnterPlan.IsCodeLine unit depth a (v ++ [e]) z) (he : isBlank e = false) (c : EnterContext) :
    b.bracketEnter c =
      (EnterPlan.make (a ++ (unit.levels depth ++ (v ++ [e]) ++ z)) c
        (a.length + (unit.levels depth ++ (v ++ [e])).length)).apply b := by
  have htext : b.text = a ++ (unit.levels depth ++ (v ++ [e]) ++ z) := by rw [h.text]; simp
  have hcursor : b.cursor = a.length + (unit.levels depth ++ (v ++ [e])).length := by rw [h.cursor, List.length_append]
  rw [Buffer.bracketEnter, h.trimAroundCursor hline he]
  simp only [htext, hcursor]

/-- what a plan without removal does -/
theorem apply_insert (h : b.At before behind) {u w : Text} :
    ((EnterPlan.insert (u ++ w) w.length).apply b).At (before ++ u) (w ++ behind) := by
  have hinserted := h.insertAtCursor (u ++ w)
  have hback : (b.insertAtCursor (u ++ w)).cursor - w.length = (before ++ u).length := by
    rw [hinserted.cursor]
    simp; omega
  rw [EnterPlan.apply]
  simp only [hback]
  exact placeCursor (by rw [hinserted.text]; simp)

/-! ## Down and End -/

/-- down from the end of a line to the end of one that is no longer -/
theorem down {w : Text} (h : b.At (a ++ u) ('\n' :: (w ++ z))) (hu : Text.IsLine a u ('\n' :: (w ++ z)))
    (hw : Text.IsLine (a ++ u ++ ['\n']) w z) (hlen : w.length ≤ u.length) :
    (b.defaultKey .down .none).At (a ++ u ++ '\n' :: w) z := by
  have hcut : a ++ (u ++ '\n' :: (w ++ z)) = a ++ u ++ ['\n'] ++ (w ++ z) := by simp
  have htext : b.text = a ++ (u ++ '\n' :: (w ++ z)) := by rw [h.text, List.append_assoc]
  have hcursor : b.cursor = a.length + u.length := by rw [h.cursor, List.length_append]
  have hposition : b.cursorPosition = ⟨a.breakEnds.length, u.length⟩ := by
    have hle : min (a.length + u.length) b.text.length = a.length + u.length := by
      rw [htext]
      simp
    rw [cursorPosition, hcursor, Text.positionOf, hle, htext, hu.lineOf_eq le_rfl, hu.lineStart_eq,
      Nat.add_sub_cancel_left]
  have hnext : (a ++ u ++ ['\n']).breakEnds.length = a.breakEnds.length + 1 := by
    rw [List.append_assoc]
    exact Text.IsLine.length_breakEnds_concat ⟨hu.before, hu.line, rfl⟩
  have hcount := hw.lt_lineCount
  have hstart := hw.lineStart_eq
  have hend := hw.lineEnd_eq
  rw [← hcut, hnext] at hcount hstart hend
  have htarget : b.verticalTarget true = (a ++ u ++ '\n' :: w).length := by
    have hline : min (a.breakEnds.length + 1) (b.text.lineCount - 1) = a.breakEnds.length + 1 := by rw [htext]; omega
    rw [verticalTarget, hposition]
    simp only [if_true]
    rw [hline, Text.columnOffset, htext, if_pos hcount, hstart, hend]
    simp only [List.length_append, List.length_cons, List.length_nil]
    omega
  have hdown : b.defaultKey .down .none = b.placeCursor (a ++ u ++ '\n' :: w).length := by
    rw [defaultKey, htarget]
    rfl
  rw [hdown]
  exact placeCursor (by rw [htext]; simp)

/-- End stays at the end of a line without blanks behind -/
theorem stop (h : b.At (a ++ (v ++ [e])) z) (hline : Text.IsLine a (v ++ [e]) z) (he : isBlank e = false) :
    (b.moveCursor b.endTarget false).At (a ++ (v ++ [e])) z := by
  have htext : b.text = a ++ ((v ++ [e]) ++ z) := by rw [h.text, List.append_assoc]
  have hcursor : b.cursor = a.length + (v ++ [e]).length := by rw [h.cursor, List.length_append]
  have hcursorLine : b.cursorLine = a.breakEnds.length := by rw [cursorLine, htext, hcursor, hline.lineOf_eq le_rfl]
  have htrim : Text.trimEnd (v ++ [e]) = v ++ [e] := LineShape.dropEndWhile_concat _ v he
  have htarget : b.endTarget = (a ++ (v ++ [e])).length := by
    rw [endTarget, hcursorLine, htext, hline.lineStart_eq, hline.lineText_eq, hline.lineEnd_eq, htrim, hcursor,
      List.length_append]
    simp
  rw [moveCursor, if_neg Bool.false_ne_true, htarget]
  exact placeCursor h.text

end At

end Buffer

end CodeEditor
