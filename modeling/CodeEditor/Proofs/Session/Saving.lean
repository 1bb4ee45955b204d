import CodeEditor.Proofs.Buffer.Normal
import CodeEditor.Proofs.Session.Keys
import CodeEditor.Proofs.Session.Run
/-!
Saving a session and opening it again.

Opening a text makes an LF of every CR LF and of every CR, and saving makes a CR LF of every LF again if the text had
one. So what is saved comes back as it was exactly if it holds no CR (`LineEnding.normalizeNewlines_write_eq_iff`). A
session starts without one, and every operation keeps it so (`step_saves`) but three: a typed CR, a replacement with a
CR, and a text with a CR that the host inserts go into the buffer as they are, while a pasted text is normalised. What
they bring in comes back as an LF.
-/

namespace CodeEditor

open Text

/-! ## Replacements -/

/-- a character that stands for itself is one of the replacement text -/
theorem ReplacementPart.mem_of_char_mem_ofText {c : Char} {t : Text} (h : char c ∈ ofText t) : c ∈ t := by
  fun_induction ofText t with
  | case1 => cases h
  | case2 t ih =>
    simp only [List.mem_cons, char.injEq] at h ⊢
    tauto
  | case3 t brace rest hrest ih =>
    simp only [List.mem_cons, reduceCtorEq, false_or] at h
    have hmem : c ∈ t.dropWhile (· != '}') := hrest ▸ List.mem_cons_of_mem brace (ih h)
    exact List.mem_cons_of_mem _ (List.mem_cons_of_mem _ ((List.dropWhile_suffix _).subset hmem))
  | case4 t _ ih =>
    simp only [List.mem_cons, char.injEq] at h ih ⊢
    tauto
  | case5 t _ _ _ ih =>
    simp only [List.mem_cons, char.injEq] at h ⊢
    tauto
  | case6 t _ _ _ ih =>
    simp only [List.mem_cons, reduceCtorEq, false_or] at h
    exact List.mem_cons_of_mem _ ((List.dropWhile_suffix _).subset (ih h))
  | case7 d t _ _ _ ih =>
    simp only [List.mem_cons, char.injEq] at h ⊢
    tauto

theorem Regex.normal_expand (r : Regex) {t replacement : Text} (m : Match) (ht : t.Normal) (h : replacement.Normal) :
    (r.expand t m replacement).Normal := by
  intro hcr
  obtain ⟨part, hpart, hmem⟩ := List.mem_flatMap.1 hcr
  cases part with
  | char c =>
    obtain rfl := List.mem_singleton.1 hmem
    exact h (ReplacementPart.mem_of_char_mem_ofText hpart)
  | group name =>
    simp only [ReplacementPart.expand] at hmem
    split at hmem
    · exact ht.slice _ _ hmem
    · cases hmem

namespace Query

theorem normal_expandReplacement (q : Query) {t replacement : Text} (o : Occurrence) (ht : t.Normal)
    (h : replacement.Normal) :
    (q.expandReplacement t o replacement).Normal := by
  unfold expandReplacement
  split_ifs
  · exact h
  · split
    · exact normal_nil
    · exact q.regex.normal_expand _ ht h

theorem normal_spliceFrom {t : Text} (ht : t.Normal) {replace : Match → Text} (h : ∀ m, (replace m).Normal)
    (start : Nat) (ms : List Match) : (spliceFrom t replace start ms).Normal := by
  induction ms generalizing start with
  | nil => exact ht.of_subset (List.drop_subset _ _)
  | cons m ms ih => exact normal_append.2 ⟨normal_append.2 ⟨ht.slice _ _, h m⟩, ih m.stop⟩

theorem normal_replaceAll (q : Query) {t replacement : Text} (ht : t.Normal) (h : replacement.Normal) :
    (q.replaceAll t replacement).1.Normal := by
  simp only [replaceAll]
  split_ifs
  · exact ht
  · exact normal_spliceFrom ht (fun m => q.regex.normal_expand m ht h) _ _
  · exact normal_spliceFrom ht (fun _ => h) _ _

end Query

/-! ## Languages -/

theorem Language.normal_lineMark {id : String} {mark : Text} (h : lineMark? id = some mark) : mark.Normal := by
  unfold lineMark? at h
  split_ifs at h <;> cases h <;> decide

/-- no language has a CR in the mark of its comments -/
theorem Language.normal_lineComment {id : Option String} {mark : Text} (h : (ofId id).lineComment? = some mark) :
    mark.Normal := by
  have hline : (ofId id).comment.line = some mark := by
    unfold lineComment? at h
    split_ifs at h
    exact h
  unfold ofId at hline
  split at hline
  · cases hline
  · split_ifs at hline
    · cases hline
      decide
    · rename_i id _
      cases hmark : lineMark? id with
      | none => rw [hmark] at hline; cases hline
      | some mark' =>
        rw [hmark] at hline
        cases hline
        exact normal_lineMark hmark

namespace Session

/-! ## Keys -/

section

variable {s : Session} (hbuffer : s.buffer.Normal)
include hbuffer

theorem normal_sync : s.sync.buffer.Normal := by
  rwa [sync_buffer]

theorem normal_grouped {f : Buffer → Buffer} (hf : ∀ b : Buffer, b.Normal → (f b).Normal) :
    (s.grouped f).buffer.Normal :=
  (hf _ hbuffer.openGroup).closeGroup

theorem normal_groupedWith {α : Type} {f : Buffer → α × Buffer} (hf : ∀ b : Buffer, b.Normal → (f b).2.Normal) :
    (s.groupedWith f).2.buffer.Normal :=
  (hf _ hbuffer.openGroup).closeGroup

theorem normal_tryGrouped {f : Buffer → Bool × Buffer} (hf : ∀ b : Buffer, b.Normal → (f b).2.Normal) :
    (s.tryGrouped f).2.buffer.Normal :=
  normal_groupedWith hbuffer hf

theorem normal_handleBasic (key : Key) (mods : Modifiers) : (s.handleBasic key mods).2.buffer.Normal := by
  simp only [handleBasic]
  split_ifs
  · exact normal_grouped hbuffer fun b hb => hb.plainEnter
  · exact normal_grouped hbuffer fun b hb => hb.unindentLines _
  · exact normal_grouped hbuffer fun b hb => hb.indentLines _ _
  · exact normal_tryGrouped hbuffer fun b hb => hb.smartBackspace
  · exact normal_tryGrouped hbuffer fun b hb => hb.smartDelete
  · exact hbuffer.moveCursor _ _
  · exact hbuffer.moveCursor _ _
  · exact hbuffer

theorem normal_handleBracket (key : Key) (mods : Modifiers) : (s.handleBracket key mods).2.buffer.Normal := by
  have hopen : (s.tryGrouped (·.openBrace s.unit)).2.buffer.Normal :=
    normal_tryGrouped hbuffer fun b hb => hb.openBrace _
  unfold handleBracket
  split_ifs with henter hclose hbrace
  · exact normal_grouped hbuffer fun b hb => hb.bracketEnter _
  · exact normal_grouped hbuffer fun b hb => hb.closeBrace _
  · split
    · rename_i s' heq
      rw [heq] at hopen
      exact hopen
    · rename_i s' heq
      rw [heq] at hopen
      rw [hbrace, handleBasic_char]
      exact hopen
  · exact normal_handleBasic hbuffer key mods

theorem normal_handleKey (key : Key) (mods : Modifiers) : (s.handleKey key mods).2.buffer.Normal := by
  have hsync : s.sync.buffer.Normal := normal_sync hbuffer
  simp only [handleKey]
  split_ifs
  · exact hsync.moveParagraph _ _
  · exact normal_handleBasic hsync key mods
  · exact normal_handleBracket hsync key mods

theorem normal_pressKey {key : Key} {mods : Modifiers} (hkey : ¬ key.TypesCr mods) :
    (s.pressKey key mods).buffer.Normal := by
  have hhandled := normal_handleKey hbuffer key mods
  unfold pressKey
  split
  · rename_i s' heq
    rw [heq] at hhandled
    exact hhandled
  · rename_i s' heq
    rw [heq] at hhandled
    exact normal_grouped hhandled fun b hb => hb.defaultKey hkey

end

/-! ## Operations -/

/-- the command puts a CR in the text without looking at it -/
def Command.BringsCr : Command → Prop
  | .press key mods => key.TypesCr mods
  | .replaceForward replacement | .replaceBackward replacement | .replaceAll replacement => ¬ replacement.Normal
  | _ => False

/-- the operation puts a CR in the text without looking at it -/
def Op.BringsCr : Op → Prop
  | .command c => c.BringsCr
  | .buffer op => ¬ op.InsertsNormal
  | _ => False

/-- what keeps a session free of CR -/
structure Saves (s : Session) : Prop where
  sound : s.Sound
  buffer : s.buffer.Normal
  mark : ∀ mark, s.language.lineComment? = some mark → mark.Normal

theorem saves_ofText (t : Text) (id : Option String) (c : Config) : Saves (ofText t (.ofId id) c) where
  sound := sound_ofText t _ c
  buffer := Buffer.normal_ofText (normal_normalizeNewlines t)
  mark := fun _ => Language.normal_lineComment

theorem normal_replaceFound {s : Session} (h : s.buffer.Normal) (found : Option Occurrence) {replacement : Text}
    (hr : replacement.Normal) : (s.replaceFound found replacement).2.buffer.Normal := by
  unfold replaceFound
  split
  · rename_i q o _
    have hexpansion := q.normal_expandReplacement o h.text hr
    exact normal_grouped h fun b hb => ((hb.erase _ _).insert _ hexpansion).withMarks _
  · exact h

theorem execute_normal {s : Session} (h : s.Saves) {c : Command} (hc : ¬ c.BringsCr) : (s.execute c).buffer.Normal := by
  cases c with
  | press key mods => exact normal_pressKey h.buffer hc
  | paste t => exact normal_groupedWith h.buffer fun b hb => hb.paste t _
  | toggleComments =>
    simp only [execute, toggleComments]
    split
    · exact h.buffer
    · rename_i mark hmark
      exact normal_groupedWith h.buffer fun b hb => hb.toggleComments (h.mark mark hmark)
  | reindent =>
    simp only [execute, reindent]
    split_ifs
    · exact h.buffer
    · exact normal_groupedWith (normal_sync h.buffer) fun b hb => hb.reindent _ _
  | cleanup => exact normal_groupedWith h.buffer fun b hb => hb.cleanup
  | prepareForSave =>
    simp only [execute, prepareForSave]
    split_ifs
    · exact normal_groupedWith h.buffer fun b hb => hb.cleanup
    · exact h.buffer
  | replaceForward replacement => exact normal_replaceFound h.buffer _ (not_not.1 hc)
  | replaceBackward replacement => exact normal_replaceFound h.buffer _ (not_not.1 hc)
  | replaceAll replacement =>
    simp only [execute, replaceAll]
    split
    · exact h.buffer
    · rename_i q _
      have hreplaced := q.normal_replaceAll h.buffer.text (not_not.1 hc)
      split_ifs
      · exact h.buffer
      · exact normal_grouped h.buffer fun b hb => ((hb.erase _ _).insert _ hreplaced).placeCursor _

theorem step_normal {s : Session} (h : s.Saves) {op : Op} (hop : ¬ op.BringsCr) : (s.step op).buffer.Normal := by
  have hfound : ∀ found, (s.selectFound found).2.buffer.Normal := by
    intro found
    unfold selectFound
    split
    · exact h.buffer
    · exact h.buffer.withMarks _
  cases op with
  | command c => exact execute_normal h hop
  | handle key mods => exact normal_handleKey h.buffer key mods
  | attach classify => exact h.buffer
  | context => exact normal_sync h.buffer
  | setUnit ch width =>
    simp only [step]
    cases IndentUnit.make ch width <;> exact h.buffer
  | inferUnit =>
    simp only [step, inferUnit]
    split <;> exact h.buffer
  | selectWord => exact h.buffer.withMarks _
  | placeAtLine line column => exact h.buffer.placeCursor _
  | placeAt p =>
    simp only [step, placeAt]
    split_ifs
    · exact h.buffer
    · exact h.buffer.placeCursor _
  | setSearch t options =>
    simp only [step, setSearch]
    split_ifs
    · exact h.buffer
    · split <;> exact h.buffer
  | searchForward => exact hfound _
  | searchBackward => exact hfound _
  | matchingBracket => exact normal_sync h.buffer
  | poll now =>
    simp only [step, poll]
    split_ifs
    · exact h.buffer
    · exact normal_sync h.buffer
    · exact h.buffer
  | buffer op => exact h.buffer.step (not_not.1 hop)

/-- **One operation** that brings no CR leaves none behind. -/
theorem step_saves {s : Session} (h : s.Saves) {op : Op} (hop : ¬ op.BringsCr) : (s.step op).Saves where
  sound := step_sound h.sound op
  buffer := step_normal h hop
  mark := by
    rw [step_language h.sound op]
    exact h.mark

theorem run_saves {s : Session} (h : s.Saves) {ops : List Op} (hops : ∀ op ∈ ops, ¬ op.BringsCr) :
    (s.run ops).Saves := by
  induction ops generalizing s with
  | nil => exact h
  | cons op ops ih =>
    exact ih (step_saves h (hops op List.mem_cons_self)) fun op' hop' => hops op' (List.mem_cons_of_mem op hop')

end Session

/-! ## Saving -/

theorem Text.trimEnd_append_blanks (t : Text) : ∃ u : Text, u.allBlank = true ∧ t.trimEnd ++ u = t :=
  ⟨t.rtakeWhile isBlank, List.all_eq_true.2 fun _ hc => List.mem_rtakeWhile_imp hc, List.rdropWhile_append_rtakeWhile⟩

namespace Buffer

/-- trimming a line takes blanks away -/
theorem normal_trimLine_iff (b : Buffer) (line : Nat) : (b.trimLine line).2.text.Normal ↔ b.text.Normal := by
  simp only [trimLine]
  split_ifs with hkept
  · rfl
  · have hline : line < b.text.lineCount := by
      by_contra hno
      rw [lineText, if_neg hno] at hkept
      exact hkept rfl
    obtain ⟨u, hu, htrim⟩ := (b.text.lineText line).trimEnd_append_blanks
    set x := b.text.lineStart line + (b.text.lineText line).trimEnd.length with hx
    set y := b.text.lineStart line + (b.text.lineText line).length with hy
    have hxy : x ≤ y := by
      have := congrArg List.length htrim
      rw [List.length_append] at this
      omega
    have hblank : (b.text.slice x y).Normal := by
      have hrow : b.text.slice (b.text.lineStart line) y = b.text.lineText line := by
        rw [hy, length_lineText hline, lineText, if_pos hline]
      have hend : b.text.slice x y = u := by
        rw [← drop_slice b.text (Nat.le_add_right _ _), hrow, Nat.add_sub_cancel_left, ← htrim,
          List.drop_left' (by rw [htrim])]
      exact hend ▸ normal_of_allBlank hu
    have hsplit : b.text = b.text.take x ++ (b.text.slice x y ++ b.text.drop y) := by
      have hbehind := b.text.drop_eq_slice_append x (y - x)
      rw [Nat.add_sub_cancel' hxy] at hbehind
      rw [← hbehind, List.take_append_drop]
    rw [erase_text b hxy]
    conv_rhs => rw [hsplit]
    simp only [normal_append, hblank, true_and]

theorem normal_trimLines_iff (b : Buffer) (lines : List Nat) : (b.trimLines lines).2.text.Normal ↔ b.text.Normal := by
  induction lines generalizing b with
  | nil => rfl
  | cons line lines ih => exact (ih _).trans (b.normal_trimLine_iff line)

theorem normal_cleanup_iff (b : Buffer) : b.cleanup.2.text.Normal ↔ b.text.Normal := by
  have htrimmed := b.normal_trimLines_iff (List.range b.text.lineCount)
  simp only [cleanup, endWithNewline]
  split_ifs
  · exact htrimmed
  · rw [insert_text, length, List.take_length, List.drop_length, List.append_nil, normal_append]
    exact (and_iff_left (by decide)).trans htrimmed

end Buffer

namespace Session

/-- saving brings no CR in, and takes none away -/
theorem normal_prepareForSave_iff (s : Session) : s.prepareForSave.2.text.Normal ↔ s.text.Normal := by
  unfold prepareForSave
  dsimp only
  split_ifs
  · exact s.buffer.openGroup.normal_cleanup_iff
  · rfl

/-- a typed CR goes into the text -/
theorem not_normal_of_typed (s : Session) {mods : Modifiers} (hmods : Key.TypesCr (.char '\r') mods) :
    ¬ (s.pressKey (.char '\r') mods).text.Normal := by
  obtain ⟨-, hcontrol, hcommand⟩ := hmods
  have hpass : s.handleKey (.char '\r') mods = (.passThrough, s.sync) := by
    rw [handleKey_char]
    simp
  simp only [pressKey, hpass, grouped_text, Buffer.defaultKey, hcontrol, hcommand, Bool.or_self,
    Bool.false_eq_true, if_false, Buffer.typeText, Buffer.insertAtCursor, Buffer.insert_text, normal_append,
    normal_cons]
  tauto

/-- **What a save loses.** A text is opened, any operations follow, the session is saved, and what was written is
opened again, in any language and with any configuration. It is the text of the saved session exactly if the session
had no CR in its text. It has none as long as no operation puts one there without looking at it, and it has one
whenever one is typed. -/
theorem saved_text_comes_back_iff (t : Text) (id : Option String) (c : Config) (ops : List Op) (l : Language)
    (d : Config) :
    let s := (ofText t (.ofId id) c).run ops
    ((ofText s.prepareForSave.1 l d).text = s.prepareForSave.2.text ↔ s.text.Normal) ∧
      ((∀ op ∈ ops, ¬ op.BringsCr) → s.text.Normal) ∧
      ∀ mods, Key.TypesCr (.char '\r') mods → ¬ (s.pressKey (.char '\r') mods).text.Normal := by
  intro s
  have hwritten : s.prepareForSave.1 = s.prepareForSave.2.lineEnding.write s.prepareForSave.2.text := rfl
  have hopened : (ofText s.prepareForSave.1 l d).text = s.prepareForSave.1.normalizeNewlines := rfl
  refine ⟨?_, fun hops => ?_, fun mods hmods => s.not_normal_of_typed hmods⟩
  · rw [hopened, hwritten, LineEnding.normalizeNewlines_write_eq_iff, normal_prepareForSave_iff]
  · exact (run_saves (saves_ofText t id c) hops).buffer.text

/-- a CR LF text, more of it pasted, undone and redone, a letter typed, and saved: all of it comes back -/
theorem pasted_crlf_comes_back :
    let ops := [Op.command (.paste "b\r\nc\rd".toList), .buffer .undo, .buffer .redo,
      .command (.press (.char 'e') .none)]
    let s := (ofText "a\r\n".toList (.ofId (some "cpp")) .default).run ops
    (∀ op ∈ ops, ¬ op.BringsCr) ∧ s.prepareForSave.1 = "b\r\nc\r\ndea\r\n".toList ∧
      (ofText s.prepareForSave.1 (.ofId (some "cpp")) .default).text = s.prepareForSave.2.text ∧
      ¬ (s.pressKey (.char '\r') .none).text.Normal := by
  intro ops s
  have hops : ∀ op ∈ ops, ¬ op.BringsCr := by
    simp [ops, Op.BringsCr, Command.BringsCr, Key.TypesCr, Buffer.Op.InsertsNormal]
  obtain ⟨hback, hnone, htyped⟩ :=
    saved_text_comes_back_iff "a\r\n".toList (some "cpp") .default ops (.ofId (some "cpp")) .default
  exact ⟨hops, by decide, hback.2 (hnone hops), htyped .none ⟨rfl, rfl, rfl⟩⟩

/-- **A replacement with a CR** goes into the text as it is. In a CR LF text its line end is written as CR CR LF, which
is opened as two line ends. -/
theorem replaced_cr_is_lost :
    let s := (ofText "a\r\nb\r\nc".toList (.ofId (some "cpp")) .default).run
      [.setSearch "b".toList .default, .command (.replaceAll "x\r\ny".toList)]
    s.prepareForSave.2.text = "a\nx\r\ny\nc".toList ∧ s.prepareForSave.1 = "a\r\nx\r\r\ny\r\nc".toList ∧
      (ofText s.prepareForSave.1 (.ofId (some "cpp")) .default).text = "a\nx\n\ny\nc".toList ∧
      (ofText s.prepareForSave.1 (.ofId (some "cpp")) .default).text ≠ s.prepareForSave.2.text := by
  intro s
  have htext : s.prepareForSave.2.text = "a\nx\r\ny\nc".toList := by
    unfold s
    cbv
  have hwritten : s.prepareForSave.1 = "a\r\nx\r\r\ny\r\nc".toList := by
    unfold s
    cbv
  have hopened : (ofText s.prepareForSave.1 (.ofId (some "cpp")) .default).text = "a\nx\n\ny\nc".toList := by
    rw [hwritten]
    decide
  refine ⟨htext, hwritten, hopened, ?_⟩
  rw [hopened, htext]
  decide

end Session

end CodeEditor
