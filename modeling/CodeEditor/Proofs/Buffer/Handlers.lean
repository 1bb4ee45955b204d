import CodeEditor.Cleanup
import CodeEditor.Comment
import CodeEditor.Indent.Reindent
import CodeEditor.Keys.Brace
import CodeEditor.Keys.Default
import CodeEditor.Keys.Deletion
import CodeEditor.Keys.Enter
import CodeEditor.Keys.IndentLines
import CodeEditor.Keys.Motion
import CodeEditor.Paste
import CodeEditor.Proofs.Buffer.Plain
/-!
Every handler reaches its result by plain operations: none opens or closes a group, undoes or redoes. A handler that may
decline decides before its first edit, so that declining leaves the buffer alone.
-/

namespace CodeEditor

namespace Buffer

/-! ## Enter -/

theorem trimAroundCursor_eq (b : Buffer) :
    b.trimAroundCursor = b.erase (blanksAround b.text b.cursor).1 (blanksAround b.text b.cursor).2 := by
  rw [trimAroundCursor]

theorem reaches_trimAroundCursor (b : Buffer) : b.Reaches b.trimAroundCursor := by
  rw [trimAroundCursor_eq]
  exact .erase b _ _

theorem reaches_plainEnter (b : Buffer) : b.Reaches b.plainEnter :=
  (reaches_trimAroundCursor b).trans (.insertAtCursor _ _)

theorem reaches_apply (b : Buffer) (plan : EnterPlan) : b.Reaches (plan.apply b) := by
  cases plan with
  | insert t back => exact (Reaches.insertAtCursor b t).trans (.placeCursor _ _)
  | dedent start stop t => exact (Reaches.erase b start stop).trans (.insertAtCursor _ t)

theorem reaches_bracketEnter (b : Buffer) (c : EnterContext) : b.Reaches (b.bracketEnter c) :=
  let d := b.trimAroundCursor
  (reaches_trimAroundCursor b).trans (reaches_apply d (EnterPlan.make d.text c d.cursor))

/-! ## Braces, Tab and deletion -/

theorem reaches_closeBrace (b : Buffer) (unit : IndentUnit) : b.Reaches (b.closeBrace unit) := by
  simp only [closeBrace]
  split_ifs
  · exact (Reaches.erase b _ _).trans (.insertAtCursor _ _)
  · exact .insertAtCursor b _

theorem reaches_openBrace (b : Buffer) (unit : IndentUnit) : b.Reaches (b.openBrace unit).2 := by
  unfold openBrace
  split_ifs
  · exact (Reaches.erase b (b.cursor - unit.width) b.cursor).trans (.insertAtCursor _ ['{'])
  · exact .refl b

theorem openBrace_declined {b : Buffer} {unit : IndentUnit} (h : (b.openBrace unit).1 = false) :
    (b.openBrace unit).2 = b := by
  simp only [openBrace] at h ⊢
  split_ifs at h ⊢
  rfl

theorem reaches_indentLines (b : Buffer) (unit : IndentUnit) (wholeLine : Bool) :
    b.Reaches (b.indentLines unit wholeLine) := by
  simp only [indentLines]
  split_ifs
  · exact .insertAtCursor b _
  · exact .insertAtCursor b _
  · exact .foldl (fun b _ => .insert b _ _) _ b

theorem reaches_unindentLines (b : Buffer) (unit : IndentUnit) : b.Reaches (b.unindentLines unit) := by
  simp only [unindentLines]
  split_ifs
  · exact .refl b
  · exact .foldl (fun b _ => .erase b _ _) _ b

theorem reaches_smartBackspace (b : Buffer) : b.Reaches b.smartBackspace.2 := by
  simp only [smartBackspace]
  split_ifs
  · exact .refl b
  · exact .erase b _ _

theorem smartBackspace_declined {b : Buffer} (h : b.smartBackspace.1 = false) : b.smartBackspace.2 = b := by
  simp only [smartBackspace] at h ⊢
  split_ifs at h ⊢
  rfl

theorem reaches_smartDelete (b : Buffer) : b.Reaches b.smartDelete.2 := by
  simp only [smartDelete]
  split_ifs
  · exact .refl b
  · exact .erase b _ _
  · exact .erase b _ _

theorem smartDelete_declined {b : Buffer} (h : b.smartDelete.1 = false) : b.smartDelete.2 = b := by
  simp only [smartDelete] at h ⊢
  split_ifs at h ⊢
  all_goals rfl

/-! ## The usual effect of keys -/

theorem reaches_typeText (b : Buffer) (t : Text) : b.Reaches (b.typeText t) :=
  (Reaches.deleteSelection b).trans (.insertAtCursor _ t)

theorem reaches_defaultKey (b : Buffer) (key : Key) (mods : Modifiers) : b.Reaches (b.defaultKey key mods) := by
  cases key with
  | char c =>
    simp only [defaultKey]
    split_ifs
    · exact .refl b
    · exact reaches_typeText b [c]
  | enter => exact reaches_typeText b ['\n']
  | tab => exact .refl b
  | backTab => exact .refl b
  | backspace =>
    simp only [defaultKey]
    split_ifs
    · exact .deleteSelection b
    · exact .erase b _ _
    · exact .refl b
  | delete =>
    simp only [defaultKey]
    split_ifs
    · exact .deleteSelection b
    · exact .erase b _ _
  | left => exact .moveCursor b _ _
  | right => exact .moveCursor b _ _
  | up => exact .moveCursor b _ _
  | down => exact .moveCursor b _ _
  | home => exact .moveCursor b _ _
  | stop => exact .moveCursor b _ _

/-! ## Whole texts -/

theorem reaches_paste (b : Buffer) (t : Text) (unit : IndentUnit) : b.Reaches (b.paste t unit).2 := by
  simp only [paste]
  split_ifs
  · exact .insertAtCursor b _
  · exact (Reaches.deleteSelection b).trans (.insertAtCursor _ _)

theorem reaches_toggleComments (b : Buffer) (mark : Text) : b.Reaches (b.toggleComments mark).2 := by
  unfold toggleComments
  split
  · exact .refl b
  · dsimp only
    split
    · exact .refl b
    · split
      · exact .foldl (fun b _ => .erase b _ _) _ b
      · exact .foldl (fun b _ => .insert b _ _) _ b

theorem reaches_reindent (b : Buffer) (spans : Spans) (unit : IndentUnit) : b.Reaches (b.reindent spans unit).2 :=
  .foldr (fun b _ => (Reaches.erase b _ _).trans (.insert _ _ _)) _ b

theorem reaches_trimLine (b : Buffer) (line : Nat) : b.Reaches (b.trimLine line).2 := by
  simp only [trimLine]
  split_ifs
  · exact .refl b
  · dsimp only
    exact .erase b _ _

theorem reaches_trimLines (b : Buffer) (lines : List Nat) : b.Reaches (b.trimLines lines).2 := by
  induction lines generalizing b with
  | nil => exact .refl b
  | cons line rest ih => exact (reaches_trimLine b line).trans (ih _)

theorem reaches_endWithNewline (b : Buffer) : b.Reaches b.endWithNewline := by
  unfold endWithNewline
  split
  · exact .refl b
  · exact .insert b _ _

theorem reaches_cleanup (b : Buffer) : b.Reaches b.cleanup.2 :=
  (reaches_trimLines b (List.range b.text.lineCount)).trans (reaches_endWithNewline _)

end Buffer

end CodeEditor
