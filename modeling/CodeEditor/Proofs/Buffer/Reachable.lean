import CodeEditor.Proofs.Buffer.OneStep
/-!
Buffers that operations lead to from a fresh one.

In a reachable buffer both marks lie within the text, and a step is recorded only while a group is open. The revision
tells whether the text changed: it never falls, and as long as it stays the same so does the text (`run_advances`).
-/

namespace CodeEditor

namespace Buffer

/-- a buffer that operations lead to from a fresh one -/
def Reachable (b : Buffer) : Prop :=
  ∃ t ops, (ofText t).run ops = b

namespace Reachable

variable {b c : Buffer}

theorem run (h : b.Reachable) (ops : List Op) : (b.run ops).Reachable := by
  obtain ⟨t, xs, rfl⟩ := h
  exact ⟨t, xs ++ ops, run_append _ xs ops⟩

theorem step (h : b.Reachable) (op : Op) : (b.step op).Reachable :=
  h.run [op]

theorem within (h : b.Reachable) : b.Within := by
  obtain ⟨t, ops, rfl⟩ := h
  exact (tracks_journal t ops).marks

theorem idle (h : b.Reachable) (hgroup : b.inGroup = false) : b.Idle := by
  obtain ⟨t, ops, rfl⟩ := h
  have hdepth : ((ofText t).run ops).history.depth = 0 := by simpa [inGroup] using hgroup
  exact ⟨hdepth, ((tracks_journal t ops).recording_none hdepth).1⟩

end Reachable

/-- the text changes only together with the revision, which never falls -/
def Advances (b c : Buffer) : Prop :=
  b.revision ≤ c.revision ∧ (c.revision = b.revision → c.text = b.text)

theorem Advances.refl (b : Buffer) : b.Advances b :=
  ⟨le_rfl, fun _ => rfl⟩

theorem Advances.trans {b c d : Buffer} (h : b.Advances c) (h' : c.Advances d) : b.Advances d := by
  refine ⟨h.1.trans h'.1, fun heq => ?_⟩
  have hbc := h.1
  have hcd := h'.1
  rw [h'.2 (by omega), h.2 (by omega)]

theorem Advances.of_lt {b c : Buffer} (h : b.revision < c.revision) : b.Advances c :=
  ⟨h.le, fun heq => absurd heq h.ne'⟩

theorem step_advances {b : Buffer} (hb : b.Within) (op : Op) : b.Advances (b.step op) := by
  have hplain : op.isPlain = true → b.Advances (b.step op) := by
    intro hop
    obtain ⟨m, -, he⟩ | ⟨e, -, he⟩ := plain_step_cases hb hop
    · rw [he]; exact ⟨le_rfl, fun _ => rfl⟩
    · rw [he]; exact .of_lt (Nat.lt_succ_self _)
  cases op with
  | openGroup => exact ⟨le_rfl, fun _ => rfl⟩
  | closeGroup => exact ⟨le_rfl, fun _ => rfl⟩
  | undo =>
    simp only [step, undo, undo?_eq]
    split
    · exact ⟨le_rfl, fun _ => rfl⟩
    · exact .of_lt (Nat.lt_succ_self _)
  | redo =>
    simp only [step, redo, redo?_eq]
    split
    · exact ⟨le_rfl, fun _ => rfl⟩
    · exact .of_lt (Nat.lt_succ_self _)
  | _ => exact hplain rfl

theorem run_advances {b : Buffer} (hb : b.Reachable) (ops : List Op) : b.Advances (b.run ops) := by
  induction ops generalizing b with
  | nil => exact .refl b
  | cons op ops ih => exact (step_advances hb.within op).trans (ih (hb.step op))

/-- operations of any kind lead from one buffer to another -/
def Runs (b c : Buffer) : Prop :=
  ∃ ops, b.run ops = c

namespace Runs

variable {b c d : Buffer}

theorem refl (b : Buffer) : b.Runs b :=
  ⟨[], rfl⟩

theorem step (b : Buffer) (op : Op) : b.Runs (b.step op) :=
  ⟨[op], rfl⟩

theorem trans (h : b.Runs c) (h' : c.Runs d) : b.Runs d := by
  obtain ⟨xs, rfl⟩ := h
  obtain ⟨ys, rfl⟩ := h'
  exact ⟨xs ++ ys, run_append b xs ys⟩

theorem of_reaches (h : b.Reaches c) : b.Runs c := by
  obtain ⟨ops, -, rfl⟩ := h
  exact ⟨ops, rfl⟩

/-- opening a group, plain operations, closing the group -/
theorem grouped (h : b.openGroup.Reaches d) : b.Runs d.closeGroup :=
  ((step b .openGroup).trans (of_reaches h)).trans (step d .closeGroup)

end Runs

end Buffer

end CodeEditor
