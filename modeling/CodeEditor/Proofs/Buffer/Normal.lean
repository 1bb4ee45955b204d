import CodeEditor.Proofs.Buffer.Handlers
import CodeEditor.Proofs.Buffer.Journal
import CodeEditor.Proofs.Indent.Reindent
import CodeEditor.Proofs.Text.LineEnding
/-!
Buffers without CR.

A buffer is *normal* if neither its text nor an edit that undo or redo can bring back holds a CR (`Buffer.Normal`). An
operation keeps a buffer normal unless it inserts a CR itself (`Normal.step`). What the handlers of keys insert is
made of blanks, LF, braces and semicolons, a pasted text is normalised first, and a comment mark goes in as it is
given: so each of them keeps a buffer normal, with the one condition on the mark. Only a typed character is not looked
at (`Normal.defaultKey`).
-/

namespace CodeEditor

open Text

/-! ## Edits and steps -/

/-- neither what the edit removes nor what it inserts has a CR -/
def Edit.Normal (e : Edit) : Prop :=
  e.removed.Normal ∧ e.inserted.Normal

theorem Edit.Normal.apply {e : Edit} (h : e.Normal) {t : Text} (ht : t.Normal) : (e.apply t).Normal := by
  have hbefore : Text.Normal (t.take e.start) := ht.of_subset (List.take_subset _ _)
  have hbehind : Text.Normal (t.drop (e.start + e.removed.length)) := ht.of_subset (List.drop_subset _ _)
  exact normal_append.2 ⟨normal_append.2 ⟨hbefore, h.2⟩, hbehind⟩

theorem Edit.Normal.inverse {e : Edit} (h : e.Normal) : e.inverse.Normal :=
  ⟨h.2, h.1⟩

/-- every edit of the step is without CR -/
def Step.Normal (s : Step) : Prop :=
  ∀ e ∈ s.edits, e.Normal

theorem Step.Normal.undo {s : Step} (h : s.Normal) {t : Text} (ht : t.Normal) : (s.undo t).Normal := by
  obtain ⟨es, before, after⟩ := s
  simp only [Step.Normal, Step.undo] at h ⊢
  induction es generalizing t with
  | nil => exact ht
  | cons e es ih =>
    have hrest : ∀ e' ∈ es, e'.Normal := fun e' he' => h e' (List.mem_cons_of_mem e he')
    have hundone : (e.inverse.apply t).Normal := (h e List.mem_cons_self).inverse.apply ht
    exact ih hundone hrest

theorem Step.Normal.redo {s : Step} (h : s.Normal) {t : Text} (ht : t.Normal) : (s.redo t).Normal := by
  obtain ⟨es, before, after⟩ := s
  simp only [Step.Normal, Step.redo] at h ⊢
  induction es with
  | nil => exact ht
  | cons e es ih => exact (h e List.mem_cons_self).apply (ih fun e' he' => h e' (List.mem_cons_of_mem e he'))

namespace History

/-- no step of the history has a CR -/
structure Normal (h : History) : Prop where
  undo : ∀ s ∈ h.undoStack, s.Normal
  redo : ∀ s ∈ h.redoStack, s.Normal
  recording : ∀ s ∈ h.recording, s.Normal

namespace Normal

variable {h : History}

theorem push (hn : h.Normal) {s : Step} (hs : s.Normal) : (h.push s).Normal := by
  unfold History.push
  split_ifs
  · exact hn
  · refine ⟨fun s' hs' => ?_, List.forall_mem_nil _, hn.recording⟩
    rcases List.mem_cons.1 (List.mem_of_mem_take hs') with rfl | hs'
    · exact hs
    · exact hn.undo s' hs'

theorem openGroup (hn : h.Normal) (m : Marks) : (h.openGroup m).Normal := by
  refine ⟨hn.undo, hn.redo, fun s hs => ?_⟩
  simp only [History.openGroup] at hs
  split_ifs at hs
  · cases hs
    exact fun e he => by cases he
  · exact hn.recording s hs

theorem closeGroup (hn : h.Normal) (m : Marks) : (h.closeGroup m).Normal := by
  unfold History.closeGroup
  split
  · exact hn
  · split
    · exact ⟨hn.undo, hn.redo, hn.recording⟩
    · rename_i s hs
      have hstep : s.Normal := hn.recording s hs
      have hclosed : History.Normal { h with depth := 0, recording := none } := ⟨hn.undo, hn.redo, by simp⟩
      exact hclosed.push hstep
  · exact ⟨hn.undo, hn.redo, hn.recording⟩

theorem closeAll (hn : h.Normal) (m : Marks) : (h.closeAll m).Normal := by
  unfold History.closeAll
  split_ifs
  · exact hn
  · have houter : History.Normal { h with depth := 1 } := ⟨hn.undo, hn.redo, hn.recording⟩
    exact houter.closeGroup m

theorem record (hn : h.Normal) {e : Edit} (he : e.Normal) (before after : Marks) :
    (h.record e before after).Normal := by
  unfold History.record
  split
  · rename_i s hs
    refine ⟨hn.undo, hn.redo, fun s' hs' => ?_⟩
    cases hs'
    intro e' he'
    rcases List.mem_cons.1 he' with rfl | he'
    · exact he
    · exact hn.recording s hs e' he'
  · refine hn.push fun e' he' => ?_
    rw [List.mem_singleton.1 he']
    exact he

end Normal

end History

/-! ## Operations -/

namespace Buffer

/-- no CR in the text, nor in anything that undo and redo can bring back -/
structure Normal (b : Buffer) : Prop where
  text : b.text.Normal
  history : b.history.Normal

theorem normal_ofText {t : Text} (h : t.Normal) : (ofText t).Normal :=
  ⟨h, List.forall_mem_nil _, List.forall_mem_nil _, by simp [ofText, History.empty]⟩

/-- what the operation inserts has no CR -/
def Op.InsertsNormal : Op → Prop
  | .insert _ t => t.Normal
  | _ => True

namespace Normal

variable {b : Buffer}

theorem withMarks (h : b.Normal) (m : Marks) : Normal { b with marks := m } :=
  ⟨h.text, h.history⟩

theorem edit (h : b.Normal) {e : Edit} (he : e.Normal) : (b.edit e).Normal :=
  ⟨he.apply h.text, h.history.record he _ _⟩

theorem insert (h : b.Normal) (offset : Nat) {u : Text} (hu : u.Normal) : (b.insert offset u).Normal := by
  unfold Buffer.insert
  split_ifs
  · exact h
  · exact h.edit ⟨normal_nil, hu⟩

theorem insertAtCursor (h : b.Normal) {u : Text} (hu : u.Normal) : (b.insertAtCursor u).Normal :=
  h.insert b.cursor hu

theorem erase (h : b.Normal) (x y : Nat) : (b.erase x y).Normal := by
  simp only [Buffer.erase]
  split_ifs
  · exact h
  · exact h.edit ⟨h.text.slice _ _, normal_nil⟩

theorem placeCursor (h : b.Normal) (offset : Nat) : (b.placeCursor offset).Normal :=
  h.withMarks _

theorem moveCursor (h : b.Normal) (target : Nat) (extend : Bool) : (b.moveCursor target extend).Normal := by
  cases extend <;> exact h.withMarks _

theorem moveParagraph (h : b.Normal) (down extend : Bool) : (b.moveParagraph down extend).Normal := by
  cases extend <;> exact h.withMarks _

theorem deleteSelection (h : b.Normal) : b.deleteSelection.Normal := by
  unfold Buffer.deleteSelection
  split_ifs
  · exact (h.erase _ _).placeCursor _
  · exact h

theorem openGroup (h : b.Normal) : b.openGroup.Normal :=
  ⟨h.text, h.history.openGroup _⟩

theorem closeGroup (h : b.Normal) : b.closeGroup.Normal :=
  ⟨h.text, h.history.closeGroup _⟩

theorem settle (h : b.Normal) : b.settle.Normal :=
  ⟨h.text, h.history.closeAll _⟩

theorem undo (h : b.Normal) : b.undo.Normal := by
  have hclosed : b.settle.history.Normal := h.settle.history
  rw [Buffer.undo, undo?_eq]
  split
  · exact h.settle
  · rename_i s rest hstack
    have hstep : s.Normal := hclosed.undo s (by rw [hstack]; exact List.mem_cons_self)
    refine ⟨hstep.undo h.text, fun s' hs' => ?_, fun s' hs' => ?_, hclosed.recording⟩
    · exact hclosed.undo s' (by rw [hstack]; exact List.mem_cons_of_mem s hs')
    · rcases List.mem_cons.1 hs' with rfl | hs'
      · exact hstep
      · exact hclosed.redo s' hs'

theorem redo (h : b.Normal) : b.redo.Normal := by
  have hclosed : b.settle.history.Normal := h.settle.history
  rw [Buffer.redo, redo?_eq]
  split
  · exact h.settle
  · rename_i s rest hstack
    have hstep : s.Normal := hclosed.redo s (by rw [hstack]; exact List.mem_cons_self)
    refine ⟨hstep.redo h.text, fun s' hs' => ?_, fun s' hs' => ?_, hclosed.recording⟩
    · rcases List.mem_cons.1 hs' with rfl | hs'
      · exact hstep
      · exact hclosed.undo s' hs'
    · exact hclosed.redo s' (by rw [hstack]; exact List.mem_cons_of_mem s hs')

/-- **One operation** of the host brings a CR in only by inserting it. -/
theorem step (h : b.Normal) {op : Op} (hop : op.InsertsNormal) : (b.step op).Normal := by
  cases op with
  | insert offset u => exact h.insert offset hop
  | erase x y => exact h.erase x y
  | deleteSelection => exact h.deleteSelection
  | placeCursor offset => exact h.placeCursor offset
  | select i j => exact h.withMarks _
  | moveInsert offset => exact h.withMarks _
  | openGroup => exact h.openGroup
  | closeGroup => exact h.closeGroup
  | undo => exact h.undo
  | redo => exact h.redo

theorem foldl {α : Type} {f : Buffer → α → Buffer} (hf : ∀ (b : Buffer) (x : α), b.Normal → (f b x).Normal)
    (h : b.Normal) (xs : List α) : (xs.foldl f b).Normal := by
  induction xs generalizing b with
  | nil => exact h
  | cons x xs ih => exact ih (hf b x h)

/-! ## Enter -/

theorem trimAroundCursor (h : b.Normal) : b.trimAroundCursor.Normal := by
  rw [trimAroundCursor_eq]
  exact h.erase _ _

theorem plainEnter (h : b.Normal) : b.plainEnter.Normal := by
  refine h.trimAroundCursor.insertAtCursor (normal_cons.2 ⟨by decide, ?_⟩)
  split_ifs
  · exact normal_lineIndent _ _
  · exact normal_lineIndent _ _

end Normal

end Buffer

theorem normal_rebase (unit : Char) {indent : Text} (hindent : indent.Normal) {lines : List Text}
    (hlines : ∀ line ∈ lines, line.Normal) : (rebase unit indent lines).Normal := by
  have hstrip : ∀ (most : Nat) (line : Text), line.Normal → (stripUnits unit most line).Normal := fun most line hline =>
    hline.of_subset (List.drop_subset _ _)
  cases lines with
  | nil => exact normal_nil
  | cons first rest =>
    refine normal_append.2 ⟨hstrip _ first (hlines first List.mem_cons_self), ?_⟩
    refine Normal.flatten fun piece hpiece => ?_
    obtain ⟨line, hline, rfl⟩ := List.mem_map.1 hpiece
    have hrest : line.Normal := hlines line (List.mem_cons_of_mem first hline)
    exact normal_append.2 ⟨normal_cons.2 ⟨by decide, hindent⟩, hstrip _ line hrest⟩

theorem IndentUnit.normal_text (unit : IndentUnit) : unit.text.Normal :=
  normal_of_allBlank unit.allBlank_text

namespace EnterPlan

/-- what the plan inserts has no CR -/
inductive Normal : EnterPlan → Prop where
  | insert {t : Text} {back : Nat} : t.Normal → Normal (.insert t back)
  | dedent {start stop : Nat} {t : Text} : t.Normal → Normal (.dedent start stop t)

theorem Normal.apply {b : Buffer} (hb : b.Normal) {plan : EnterPlan} (h : plan.Normal) : (plan.apply b).Normal := by
  cases h with
  | insert ht => exact (hb.insertAtCursor ht).placeCursor _
  | dedent ht => exact (hb.erase _ _).insertAtCursor ht

theorem normal_newline {indent : Text} (h : indent.Normal) : (newline indent).Normal :=
  .insert (normal_cons.2 ⟨by decide, h⟩)

theorem normal_afterBrace (t : Text) (c : EnterContext) (cursor statement : Nat)
    {indent : Text} (h : indent.Normal) : (afterBrace t c cursor statement indent).Normal := by
  have houter : Text.Normal ('\n' :: indent) := normal_cons.2 ⟨by decide, h⟩
  have hinner : Text.Normal ('\n' :: indent ++ c.unit.text) := normal_append.2 ⟨houter, c.unit.normal_text⟩
  unfold afterBrace
  dsimp only
  split_ifs
  · exact .insert (normal_append.2 ⟨hinner, houter⟩)
  · exact .insert hinner
  all_goals exact .insert (normal_append.2 ⟨normal_append.2 ⟨hinner, houter⟩, by decide⟩)

theorem normal_afterHeadless? {t : Text} {c : EnterContext} {line : Nat} {indent : Text} {plan : EnterPlan}
    (h : afterHeadless? t c line indent = some plan) : plan.Normal := by
  unfold afterHeadless? at h
  dsimp only at h
  split_ifs at h
  cases h
  exact normal_newline (normal_indentation _)

theorem normal_afterLabel? {t : Text} {c : EnterContext} {cursor : Nat} {indent : Text}
    (hindent : indent.Normal) {plan : EnterPlan} (h : afterLabel? t c cursor indent = some plan) : plan.Normal := by
  unfold afterLabel? at h
  split at h
  · cases h
  · dsimp only at h
    split_ifs at h
    · cases h
      exact normal_newline (normal_append.2 ⟨hindent, c.unit.normal_text⟩)
    · cases h
      exact .dedent (normal_cons.2 ⟨by decide, hindent⟩)

/-- **Every plan** inserts LF, blanks, braces and semicolons. -/
theorem normal_make (t : Text) (c : EnterContext) (cursor : Nat) :
    (make t c cursor).Normal := by
  have hindent : ∀ line, (t.lineIndent line).Normal := normal_lineIndent t
  unfold make
  dsimp only
  split
  · exact normal_afterBrace t c _ _ (hindent _)
  split
  · exact normal_newline (normal_append.2 ⟨hindent _, normal_of_allBlank (allBlank_replicate rfl _)⟩)
  split
  · exact normal_newline (normal_append.2 ⟨hindent _, c.unit.normal_text⟩)
  -- a special line, or else a plain new one
  cases hspecial : (if t.charAt (cursor - 1) = ';' then _ else _ : Option EnterPlan) with
  | none => exact normal_newline (hindent _)
  | some plan =>
    split_ifs at hspecial
    · exact normal_afterHeadless? hspecial
    · exact normal_afterLabel? (hindent _) hspecial

end EnterPlan

/-- a key types a CR: it is that character, and neither Control nor the command key is held -/
def Key.TypesCr (key : Key) (mods : Modifiers) : Prop :=
  key = .char '\r' ∧ mods.control = false ∧ mods.command = false

namespace Buffer.Normal

variable {b : Buffer}

theorem bracketEnter (h : b.Normal) (c : EnterContext) : (b.bracketEnter c).Normal := by
  have hplan := EnterPlan.normal_make b.trimAroundCursor.text c b.trimAroundCursor.cursor
  exact hplan.apply h.trimAroundCursor

/-! ## Braces, Tab and deletion -/

theorem closeBrace (h : b.Normal) (unit : IndentUnit) : (b.closeBrace unit).Normal := by
  simp only [Buffer.closeBrace]
  split_ifs
  · exact (h.erase _ _).insertAtCursor (u := ['}']) (by decide)
  · exact h.insertAtCursor (u := ['}']) (by decide)

theorem openBrace (h : b.Normal) (unit : IndentUnit) : (b.openBrace unit).2.Normal := by
  unfold Buffer.openBrace
  split_ifs
  · exact (h.erase _ _).insertAtCursor (u := ['{']) (by decide)
  · exact h

theorem indentLines (h : b.Normal) (unit : IndentUnit) (wholeLine : Bool) :
    (b.indentLines unit wholeLine).Normal := by
  have hneighbour : (neighbourIndent b.text b.cursor).Normal := by
    simp only [neighbourIndent]
    split_ifs <;> exact normal_lineIndent _ _
  simp only [Buffer.indentLines]
  split_ifs
  · exact h.insertAtCursor unit.normal_text
  · exact h.insertAtCursor hneighbour
  · exact h.foldl (fun b _ hb => hb.insert _ unit.normal_text) _

theorem unindentLines (h : b.Normal) (unit : IndentUnit) : (b.unindentLines unit).Normal := by
  simp only [Buffer.unindentLines]
  split_ifs
  · exact h
  · exact h.foldl (fun b _ hb => hb.erase _ _) _

theorem smartBackspace (h : b.Normal) : b.smartBackspace.2.Normal := by
  simp only [Buffer.smartBackspace]
  split_ifs
  · exact h
  · exact h.erase _ _

theorem smartDelete (h : b.Normal) : b.smartDelete.2.Normal := by
  simp only [Buffer.smartDelete]
  split_ifs
  · exact h
  all_goals exact h.erase _ _

/-! ## The usual effect of keys -/

theorem typeText (h : b.Normal) {u : Text} (hu : u.Normal) : (b.typeText u).Normal :=
  h.deleteSelection.insertAtCursor hu

theorem defaultKey (h : b.Normal) {key : Key} {mods : Modifiers} (hkey : ¬ key.TypesCr mods) :
    (b.defaultKey key mods).Normal := by
  cases key with
  | char c =>
    simp only [Buffer.defaultKey]
    split_ifs with hmods
    · exact h
    · refine h.typeText (normal_cons.2 ⟨?_, normal_nil⟩)
      rintro rfl
      simp only [Bool.or_eq_true, not_or, Bool.not_eq_true] at hmods
      exact hkey ⟨rfl, hmods⟩
  | enter => exact h.typeText (by decide)
  | tab => exact h
  | backTab => exact h
  | backspace =>
    simp only [Buffer.defaultKey]
    split_ifs
    · exact h.deleteSelection
    · exact h.erase _ _
    · exact h
  | delete =>
    simp only [Buffer.defaultKey]
    split_ifs
    · exact h.deleteSelection
    · exact h.erase _ _
  | left => exact h.moveCursor _ _
  | right => exact h.moveCursor _ _
  | up => exact h.moveCursor _ _
  | down => exact h.moveCursor _ _
  | home => exact h.moveCursor _ _
  | stop => exact h.moveCursor _ _

/-! ## Whole texts -/

theorem paste (h : b.Normal) (t : Text) (unit : IndentUnit) : (b.paste t unit).2.Normal := by
  have ht := normal_normalizeNewlines t
  have hlines : ∀ line ∈ pastedLines t.normalizeNewlines, line.Normal := by
    intro line hline
    refine ht.of_subset (subset_of_mem_splitOn (c := '\n') ?_)
    unfold pastedLines at hline
    dsimp only at hline
    split_ifs at hline
    · exact List.mem_of_mem_dropLast hline
    · exact hline
  simp only [Buffer.paste]
  split_ifs
  · exact h.insertAtCursor (normal_rebase _ (normal_lineIndent _ _) hlines)
  · exact h.deleteSelection.insertAtCursor ht

theorem toggleComments (h : b.Normal) {mark : Text} (hmark : mark.Normal) : (b.toggleComments mark).2.Normal := by
  unfold Buffer.toggleComments
  split
  · exact h
  · dsimp only
    split
    · exact h
    · split
      · exact h.foldl (fun b _ hb => hb.erase _ _) _
      · exact h.foldl (fun b _ hb => hb.insert _ (normal_append.2 ⟨hmark, by decide⟩)) _

theorem reindent (h : b.Normal) (spans : Spans) (unit : IndentUnit) :
    (b.reindent spans unit).2.Normal := by
  have hplan : ∀ change ∈ planReindent b.text spans unit, change.indent.Normal := by
    intro change hchange
    rw [planReindent_eq] at hchange
    obtain ⟨line, -, hline⟩ := List.mem_filterMap.1 hchange
    obtain ⟨level, -, -, rfl⟩ := changeAt?_eq_some hline
    exact normal_of_allBlank (unit.allBlank_levels level)
  show (b.setIndents (planReindent b.text spans unit)).Normal
  generalize planReindent b.text spans unit = plan at hplan
  induction plan with
  | nil => exact h
  | cons change plan ih =>
    have hbehind : (b.setIndents plan).Normal := ih fun change' hchange' =>
      hplan change' (List.mem_cons_of_mem change hchange')
    exact (hbehind.erase _ _).insert _ (hplan change List.mem_cons_self)

theorem trimLine (h : b.Normal) (line : Nat) : (b.trimLine line).2.Normal := by
  simp only [Buffer.trimLine]
  split_ifs
  · exact h
  · dsimp only
    exact h.erase _ _

theorem trimLines (h : b.Normal) (lines : List Nat) : (b.trimLines lines).2.Normal := by
  induction lines generalizing b with
  | nil => exact h
  | cons line lines ih => exact ih (h.trimLine line)

theorem endWithNewline (h : b.Normal) : b.endWithNewline.Normal := by
  unfold Buffer.endWithNewline
  split_ifs
  · exact h
  · exact h.insert _ (by decide)

theorem cleanup (h : b.Normal) : b.cleanup.2.Normal :=
  (h.trimLines _).endWithNewline

end Buffer.Normal

end CodeEditor
