import CodeEditor.Proofs.Buffer.Handlers
import CodeEditor.Proofs.Buffer.Reachable
import CodeEditor.Session.Keys
import CodeEditor.Session.Search
/-!
What the commands of a session do to its buffer.

A key handler handles its key in one action on the buffer, a move of the marks or plain operations inside one group, or
it declines and leaves the buffer alone (`Handles`). A command changes nothing of the session but the buffer and, at
most, the spans found anew, and all its edits are covered by one step of the history (`execute_affects`).
-/

namespace CodeEditor

namespace Buffer

/-- the marks move, or plain operations run inside one group -/
inductive Acts (b : Buffer) : Buffer → Prop where
  | moved {m : Marks} : m.Within b.text.length → Acts b { b with marks := m }
  | grouped {d : Buffer} : b.openGroup.Reaches d → Acts b d.closeGroup

theorem Acts.runs {b c : Buffer} (h : b.Acts c) : b.Runs c := by
  cases h with
  | @moved m hm =>
    have hsel : { b with marks := m } = b.step (.select m.insert m.bound) := by
      simp only [step, select, clamp, length, min_eq_left hm.1, min_eq_left hm.2]
    rw [hsel]; exact .step b _
  | grouped h => exact .grouped h

theorem Acts.oneStep {b c : Buffer} (h : b.Acts c) (hidle : b.Idle) (hb : b.Within) : OneStep b c := by
  cases h with
  | moved _ => exact .moved _
  | grouped h => exact grouped_oneStep hidle hb h

theorem acts_select (b : Buffer) (i j : Nat) : b.Acts (b.select i j) :=
  .moved (m := ⟨b.clamp i, b.clamp j⟩) ⟨b.clamp_le _, b.clamp_le _⟩

theorem acts_placeCursor (b : Buffer) (offset : Nat) : b.Acts (b.placeCursor offset) :=
  .moved (m := .both (b.clamp offset)) ⟨b.clamp_le _, b.clamp_le _⟩

theorem acts_moveCursor {b : Buffer} (hb : b.Within) (target : Nat) (extend : Bool) :
    b.Acts (b.moveCursor target extend) := by
  cases extend with
  | false => exact acts_placeCursor b target
  | true => exact .moved (m := ⟨b.clamp target, b.marks.bound⟩) ⟨b.clamp_le _, hb.2⟩

theorem acts_moveParagraph (b : Buffer) (down extend : Bool) : b.Acts (b.moveParagraph down extend) := by
  cases extend with
  | false => exact acts_placeCursor b _
  | true => exact acts_select b _ _

/-- a handler that declined left the buffer alone, or opened a group and closed it again -/
def Declines (b c : Buffer) : Prop :=
  c = b ∨ c = b.openGroup.closeGroup

theorem Declines.runs {b c : Buffer} (h : b.Declines c) : b.Runs c := by
  rcases h with rfl | rfl
  · exact .refl _
  · exact .grouped (.refl _)

theorem Declines.eq {b c : Buffer} (h : b.Declines c) (hidle : b.Idle) : c = b := by
  obtain ⟨hdepth, hrec⟩ := hidle
  rcases h with rfl | rfl
  · rfl
  · obtain ⟨t, m, ⟨undo, redo, recording, depth⟩, r⟩ := b
    simp only at hdepth hrec
    subst hdepth hrec
    rfl

end Buffer

namespace Session

/-- the operations that may edit the text -/
inductive Command where
  | press (key : Key) (mods : Modifiers)
  | paste (t : Text)
  | toggleComments
  | reindent
  | cleanup
  | prepareForSave
  | replaceForward (replacement : Text)
  | replaceBackward (replacement : Text)
  | replaceAll (replacement : Text)
  deriving DecidableEq, Repr

/-- carry a command out -/
def execute (s : Session) : Command → Session
  | .press key mods => s.pressKey key mods
  | .paste t => (s.paste t).2
  | .toggleComments => s.toggleComments.2
  | .reindent => s.reindent.2
  | .cleanup => s.cleanup.2
  | .prepareForSave => s.prepareForSave.2
  | .replaceForward replacement => (s.replaceForward replacement).2
  | .replaceBackward replacement => (s.replaceBackward replacement).2
  | .replaceAll replacement => (s.replaceAll replacement).2

theorem grouped_text (s : Session) (f : Buffer → Buffer) : (s.grouped f).text = (f s.buffer.openGroup).text := rfl

theorem sync_buffer (s : Session) : s.sync.buffer = s.buffer := by
  unfold sync
  split
  · rfl
  · split_ifs <;> rfl

/-- what a key handler does: it handles the key in one action on the buffer, or declines -/
def Handles (s : Session) (result : KeyOutcome × Session) : Prop :=
  ∃ b, result.2 = { s with buffer := b } ∧
    ((result.1 = .handled ∧ s.buffer.Acts b) ∨ (result.1 = .passThrough ∧ s.buffer.Declines b))

theorem handles_grouped {s : Session} {f : Buffer → Buffer} (hf : ∀ b : Buffer, b.Reaches (f b)) :
    s.Handles (.handled, s.grouped f) :=
  ⟨_, rfl, Or.inl ⟨rfl, .grouped (hf _)⟩⟩

theorem handles_tryGrouped {s : Session} {f : Buffer → Bool × Buffer} (hf : ∀ b : Buffer, b.Reaches (f b).2)
    (hdeclined : ∀ b, (f b).1 = false → (f b).2 = b) : s.Handles (s.tryGrouped f) := by
  refine ⟨(f s.buffer.openGroup).2.closeGroup, rfl, ?_⟩
  cases hdone : (f s.buffer.openGroup).1 with
  | true => exact Or.inl ⟨by simp [tryGrouped, groupedWith, hdone], .grouped (hf _)⟩
  | false =>
    refine Or.inr ⟨by simp [tryGrouped, groupedWith, hdone], Or.inr ?_⟩
    rw [hdeclined _ hdone]

theorem handles_declined (s : Session) : s.Handles (.passThrough, s) :=
  ⟨s.buffer, rfl, Or.inr ⟨rfl, Or.inl rfl⟩⟩

theorem handleBasic_handles {s : Session} (hs : s.buffer.Within) (key : Key) (mods : Modifiers) :
    s.Handles (s.handleBasic key mods) := by
  have hmove : ∀ target extend, s.Handles (.handled, s.mapBuffer fun b => b.moveCursor target extend) :=
    fun target extend => ⟨_, rfl, Or.inl ⟨rfl, Buffer.acts_moveCursor hs target extend⟩⟩
  unfold handleBasic
  dsimp only
  split_ifs
  · exact handles_grouped Buffer.reaches_plainEnter
  · exact handles_grouped fun b => b.reaches_unindentLines _
  · exact handles_grouped fun b => b.reaches_indentLines _ _
  · exact handles_tryGrouped Buffer.reaches_smartBackspace fun b => Buffer.smartBackspace_declined
  · exact handles_tryGrouped Buffer.reaches_smartDelete fun b => Buffer.smartDelete_declined
  · exact hmove _ _
  · exact hmove _ _
  · exact handles_declined s

/-- no language has its own handling of a character beyond that of braces -/
theorem handleBasic_char (s : Session) (c : Char) (mods : Modifiers) :
    s.handleBasic (.char c) mods = (.passThrough, s) := by
  simp [handleBasic, Key.isUnindent]

theorem handleBracket_handles {s : Session} (hs : s.buffer.Within) (key : Key) (mods : Modifiers) :
    s.Handles (s.handleBracket key mods) := by
  have hopen : s.Handles (s.tryGrouped (·.openBrace s.unit)) :=
    handles_tryGrouped (fun b => b.reaches_openBrace _) fun b => Buffer.openBrace_declined
  unfold handleBracket
  split_ifs with henter hclose hbrace
  · exact handles_grouped fun b => b.reaches_bracketEnter _
  · exact handles_grouped fun b => b.reaches_closeBrace _
  · split
    · rename_i s' heq
      rw [heq] at hopen
      exact hopen
    · rename_i s' heq
      rw [heq] at hopen
      rw [hbrace, handleBasic_char]
      exact hopen
  · exact handleBasic_handles hs key mods

theorem handleKey_handles {s : Session} (hs : s.buffer.Within) (key : Key) (mods : Modifiers) :
    s.sync.Handles (s.handleKey key mods) := by
  have hs' : s.sync.buffer.Within := by rw [sync_buffer]; exact hs
  unfold handleKey
  dsimp only
  split_ifs
  · exact ⟨_, rfl, Or.inl ⟨rfl, Buffer.acts_moveParagraph _ _ _⟩⟩
  · exact handleBasic_handles hs' key mods
  · exact handleBracket_handles hs' key mods

/-- what an operation does: it changes the buffer and at most finds the spans again, and of its
edits there is one step -/
def Affects (s s' : Session) : Prop :=
  ∃ b, (s' = { s with buffer := b } ∨ s' = { s.sync with buffer := b }) ∧ s.buffer.Runs b ∧
    (s.buffer.Idle → s.buffer.Within → Buffer.OneStep s.buffer b)

theorem affects_refl (s : Session) : s.Affects s :=
  ⟨s.buffer, Or.inl rfl, .refl _, fun _ _ => .refl _⟩

theorem affects_of_acts {s : Session} {b : Buffer} (h : s.buffer.Acts b) : s.Affects { s with buffer := b } :=
  ⟨b, Or.inl rfl, h.runs, fun hidle hb => h.oneStep hidle hb⟩

theorem affects_groupedWith {α : Type} {s : Session} {f : Buffer → α × Buffer} (hf : ∀ b : Buffer, b.Reaches (f b).2) :
    s.Affects (s.groupedWith f).2 :=
  affects_of_acts (.grouped (hf _))

theorem handleKey_affects {s : Session} (hs : s.buffer.Within) (key : Key) (mods : Modifiers) :
    s.Affects (s.handleKey key mods).2 := by
  obtain ⟨b, hb, ⟨-, hacts⟩ | ⟨-, hdecl⟩⟩ := handleKey_handles hs key mods
  · rw [sync_buffer] at hacts
    exact ⟨b, Or.inr hb, hacts.runs, fun hidle hw => hacts.oneStep hidle hw⟩
  · rw [sync_buffer] at hdecl
    refine ⟨b, Or.inr hb, hdecl.runs, fun hidle _ => ?_⟩
    rw [hdecl.eq hidle]; exact .refl _

theorem pressKey_affects {s : Session} (hs : s.buffer.Within) (key : Key) (mods : Modifiers) :
    s.Affects (s.pressKey key mods) := by
  have h := handleKey_affects hs key mods
  have hhandles := handleKey_handles hs key mods
  unfold pressKey
  split
  · rename_i s' heq
    rw [heq] at h
    exact h
  · rename_i s' heq
    rw [heq] at hhandles
    obtain ⟨b, rfl, ⟨hno, -⟩ | ⟨-, hdecl⟩⟩ := hhandles
    · cases hno
    · rw [sync_buffer] at hdecl
      have hacts : b.Acts (Buffer.grouped (·.defaultKey key mods) b) :=
        .grouped (Buffer.reaches_defaultKey _ key mods)
      refine ⟨_, Or.inr rfl, hdecl.runs.trans hacts.runs, fun hidle hw => ?_⟩
      rw [hdecl.eq hidle] at hacts ⊢
      exact hacts.oneStep hidle hw

theorem replaceFound_affects (s : Session) (found : Option Occurrence) (replacement : Text) :
    s.Affects (s.replaceFound found replacement).2 := by
  unfold replaceFound
  split
  · exact affects_of_acts (.grouped (((Buffer.Reaches.erase _ _ _).trans (.insert _ _ _)).trans (.select _ _ _)))
  · exact affects_refl s

theorem replaceAll_affects (s : Session) (replacement : Text) : s.Affects (s.replaceAll replacement).2 := by
  unfold replaceAll
  split
  · exact affects_refl s
  · dsimp only
    split_ifs
    · exact affects_refl s
    · exact affects_of_acts (.grouped (((Buffer.Reaches.erase _ _ _).trans (.insert _ _ _)).trans (.placeCursor _ _)))

theorem execute_affects {s : Session} (hs : s.buffer.Within) (c : Command) : s.Affects (s.execute c) := by
  cases c with
  | press key mods => exact pressKey_affects hs key mods
  | paste t => exact affects_groupedWith fun b => b.reaches_paste t _
  | toggleComments =>
    simp only [execute, toggleComments]
    split
    · exact affects_refl s
    · exact affects_groupedWith fun b => b.reaches_toggleComments _
  | reindent =>
    simp only [execute, reindent]
    split_ifs
    · exact affects_refl s
    · have hacts : s.buffer.Acts (s.sync.buffer.openGroup.reindent s.sync.spans s.sync.unit).2.closeGroup := by
        rw [sync_buffer]; exact .grouped (Buffer.reaches_reindent _ _ _)
      exact ⟨_, Or.inr rfl, hacts.runs, fun hidle hw => hacts.oneStep hidle hw⟩
  | cleanup => exact affects_groupedWith Buffer.reaches_cleanup
  | prepareForSave =>
    simp only [execute, prepareForSave]
    split_ifs
    · exact affects_groupedWith Buffer.reaches_cleanup
    · exact affects_refl s
  | replaceForward replacement => exact replaceFound_affects s _ replacement
  | replaceBackward replacement => exact replaceFound_affects s _ replacement
  | replaceAll replacement => exact replaceAll_affects s replacement

end Session

end CodeEditor
