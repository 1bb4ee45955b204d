import CodeEditor.Proofs.Buffer.Journal
/-!
One group, one step.

Plain operations run between the opening and the closing of a group leave one step that covers all of them, or none if
they made no edit (`grouped_oneStep`). Undoing that step brings back the text and the marks from before the group
(`OneStep.cases`). A group in which nothing happens leaves no trace at all (`untouched_group`).
-/

namespace CodeEditor.Buffer

/-- no group is open -/
def Idle (b : Buffer) : Prop :=
  b.history.depth = 0 ∧ b.history.recording = none

/-- at most the marks moved, or one new step covers the way from one buffer to the other -/
inductive OneStep (b : Buffer) : Buffer → Prop where
  | moved (m : Marks) : OneStep b { b with marks := m }
  | edited {c : Buffer} (s : Step) : s.edits ≠ [] → s.before = b.marks → Leads s.edits b.text c.text →
      c.history = b.history.push s → b.revision < c.revision → OneStep b c

theorem OneStep.refl (b : Buffer) : OneStep b b :=
  .moved b.marks

theorem openGroup_within {b : Buffer} (h : b.Within) : b.openGroup.Within := h

/-- inside a group every edit joins the step being recorded, and nothing else of the history changes -/
theorem Reaches.recorded {b c : Buffer} (h : b.Reaches c) (hb : b.Within) {s : Step}
    (hs : b.history.recording = some s) :
    ∃ es, c.history = { b.history with recording := some { s with edits := es ++ s.edits } } ∧
      Leads es b.text c.text ∧ c.revision = b.revision + es.length := by
  suffices c.Within ∧ ∃ es, c.history = { b.history with recording := some { s with edits := es ++ s.edits } } ∧
      Leads es b.text c.text ∧ c.revision = b.revision + es.length from this.2
  refine h.induct (P := fun c => c.Within ∧ ∃ es,
    c.history = { b.history with recording := some { s with edits := es ++ s.edits } } ∧
      Leads es b.text c.text ∧ c.revision = b.revision + es.length) ⟨hb, [], ?_, .nil _, rfl⟩ ?_
  · simp [← hs]
  · rintro d op hop ⟨hd, es, hhist, hleads, hrev⟩
    refine ⟨plain_step_within hd hop, ?_⟩
    obtain ⟨m, -, he⟩ | ⟨e, hfit, he⟩ := plain_step_cases hd hop
    · rw [he]; exact ⟨es, hhist, hleads, hrev⟩
    · rw [he]
      refine ⟨e :: es, ?_, .cons e hleads hfit, by simp [hrev]; omega⟩
      simp [History.record, hhist]

/-- a group of plain operations is one step, or none if nothing was edited -/
theorem grouped_oneStep {b d : Buffer} (hidle : b.Idle) (hb : b.Within) (h : b.openGroup.Reaches d) :
    OneStep b d.closeGroup := by
  obtain ⟨hdepth, hrec⟩ := hidle
  obtain ⟨es, hhist, hleads, hrev⟩ := h.recorded (openGroup_within hb) (s := ⟨[], b.marks, b.marks⟩)
    (by simp [openGroup, History.openGroup, hdepth])
  have hbase : { b.history with depth := 0, recording := none } = b.history := by
    rw [← hdepth, ← hrec]
  have hclosed : d.closeGroup.history = b.history.push ⟨es, b.marks, d.marks⟩ := by
    simp only [closeGroup, hhist, openGroup, History.openGroup, hdepth, History.closeGroup, List.append_nil]
    rw [← hbase]
  cases es with
  | nil =>
    have hsame : d.closeGroup = { b with marks := d.marks } := by
      have htext : d.text = b.text := hleads.eq_of_nil.symm
      have hd : d.closeGroup = ⟨d.text, d.marks, d.closeGroup.history, d.revision⟩ := rfl
      rw [hd, hclosed, htext, hrev]
      rfl
    rw [hsame]; exact .moved _
  | cons e es =>
    refine .edited ⟨e :: es, b.marks, d.marks⟩ (by simp) rfl hleads hclosed ?_
    have : d.closeGroup.revision = b.revision + (e :: es).length := hrev
    simp only [this, List.length_cons]; omega

/-- the whole of what a step that covers everything means: nothing was edited, or undoing it once
brings everything back -/
theorem OneStep.cases {b c : Buffer} (h : OneStep b c) (hidle : b.Idle) :
    (c.text = b.text ∧ c.revision = b.revision ∧ c.history = b.history) ∨
      (b.revision < c.revision ∧ c.inGroup = false ∧ c.history.redoStack = [] ∧
        (∃ s, c.history.undoStack = (s :: b.history.undoStack).take History.limit) ∧
        ∃ d, c.undo? = some d ∧ d.moment = b.moment) := by
  cases h with
  | moved m => exact Or.inl ⟨rfl, rfl, rfl⟩
  | edited s hne hbefore hleads hhist hrev =>
    have hpush :
      c.history = { b.history with undoStack := (s :: b.history.undoStack).take History.limit, redoStack := [] } := by
      rw [hhist, History.push, if_neg (by simpa using hne)]
    have hdepth : c.history.depth = 0 := by rw [hpush]; exact hidle.1
    have hstack : c.settle.history.undoStack = s :: b.history.undoStack.take (History.limit - 1) := by
      rw [settle, closeAll_none c.marks hdepth, hpush]
      rfl
    refine Or.inr ⟨hrev, by simp [inGroup, hdepth], by rw [hpush], ⟨s, by rw [hpush]⟩, ?_⟩
    rw [undo?_eq, hstack]
    exact ⟨_, rfl, by simp only [moment, hleads.undo, hbefore]⟩

/-! ## No step -/

/-- the text and the marks stay, and so do the revision and both stacks of steps -/
structure Untouched (b c : Buffer) : Prop where
  text : c.text = b.text
  marks : c.marks = b.marks
  revision : c.revision = b.revision
  undoStack : c.history.undoStack = b.history.undoStack
  redoStack : c.history.redoStack = b.history.redoStack

theorem Untouched.trans {b c d : Buffer} (h : b.Untouched c) (h' : c.Untouched d) : b.Untouched d where
  text := h'.text.trans h.text
  marks := h'.marks.trans h.marks
  revision := h'.revision.trans h.revision
  undoStack := h'.undoStack.trans h.undoStack
  redoStack := h'.redoStack.trans h.redoStack

/-- a group without edits leaves no trace, also inside of another one -/
theorem untouched_group (b : Buffer) : b.Untouched b.openGroup.closeGroup := by
  obtain ⟨text, marks, ⟨undo, redo, recording, depth⟩, revision⟩ := b
  cases depth with
  | zero => exact ⟨rfl, rfl, rfl, rfl, rfl⟩
  | succ depth => exact ⟨rfl, rfl, rfl, rfl, rfl⟩

end CodeEditor.Buffer
