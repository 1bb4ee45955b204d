import CodeEditor.Proofs.Keys.Ink
import CodeEditor.Proofs.Keys.Unindent
import CodeEditor.Proofs.Session.Keys
import CodeEditor.Proofs.Session.Run
/-!
Keys do not damage the text.

What a key does to the ink of a session follows from the handler that answers it: Tab, Backspace and Delete keep all of
it, Enter adds a closing brace at most, and a brace key adds that brace (`keys_keep_ink`). The one exception is Tab with
Shift over a line that melts: lines behind it are renumbered, and one of them can lose characters that are no blanks. It
happens with every indent unit (`melting_loses_ink`).
-/

namespace CodeEditor

namespace Buffer

/-- a group adds nothing to what is done inside it -/
theorem KeepsInk.closeGroup {b d : Buffer} (h : b.openGroup.KeepsInk d) : b.KeepsInk d.closeGroup :=
  ⟨h.before, h.behind⟩

theorem PutsInk.closeGroup {b d : Buffer} {u : Text} (h : b.openGroup.PutsInk u d) : b.PutsInk u d.closeGroup := h

end Buffer

namespace Session

variable {s : Session}

theorem tab_keepsInk {key : Key} (hkey : key = .tab ∨ key = .backTab) {mods : Modifiers}
    (hindent : key.isUnindent mods = false) : s.buffer.KeepsInk (s.pressKey key mods).buffer := by
  have heffect : s.sync.buffer.openGroup.KeepsInk (s.sync.tabEffect key mods s.sync.buffer.openGroup) := by
    rw [tabEffect, hindent]
    exact Buffer.keepsInk_indentLines _ _ _
  simp only [pressKey, handleKey_tab s hkey mods]
  rw [← s.sync_buffer]
  exact heffect.closeGroup

theorem unindent_text (s : Session) {key : Key} (hkey : key = .tab ∨ key = .backTab) {mods : Modifiers}
    (hunindent : key.isUnindent mods = true) : (s.pressKey key mods).text = (s.buffer.unindentLines s.unit).text := by
  have hopen : (s.buffer.openGroup.unindentLines s.unit).text = (s.buffer.unindentLines s.unit).text := by
    rw [Buffer.unindentLines_text, Buffer.unindentLines_text]; rfl
  simp only [pressKey, handleKey_tab s hkey mods, grouped_text, tabEffect, hunindent, if_true, sync_unit, sync_buffer]
  exact hopen

theorem deletion_keepsInk (hs : s.Reachable) {key : Key} (hkey : key = .backspace ∨ key = .delete) (mods : Modifiers)
    (h : (s.handleKey key mods).1 = .handled) : s.buffer.KeepsInk (s.handleKey key mods).2.buffer := by
  have hwithin : s.buffer.Within := hs.sound.buffer.within
  rcases handleKey_deletion s hkey mods h with ⟨-, heq⟩ | ⟨-, heq⟩
  · rw [heq, ← s.sync_buffer]
    exact (Buffer.keepsInk_smartBackspace s.sync.buffer.openGroup).closeGroup
  · rw [heq, ← s.sync_buffer]
    rw [← s.sync_buffer] at hwithin
    exact (Buffer.keepsInk_smartDelete (b := s.sync.buffer.openGroup) hwithin).closeGroup

theorem enter_putsInk (hs : s.Reachable) (mods : Modifiers) (hsel : s.buffer.hasSelection = false) :
    ∃ u ∈ closers, s.buffer.PutsInk u (s.pressKey .enter mods).buffer := by
  have hwithin : s.sync.buffer.openGroup.Within := by rw [sync_buffer]; exact hs.sound.buffer.within
  have hsel' : s.sync.buffer.openGroup.hasSelection = false := by rw [sync_buffer]; exact hsel
  rw [← s.sync_buffer]
  simp only [pressKey, handleKey_enter s mods hsel]
  split_ifs
  · -- at a line start, a plain line break
    have hbreak := Buffer.putsInk_insertAtCursor s.sync.buffer.openGroup ['\n']
    refine ⟨[], by decide, ?_⟩
    have hdefault : s.sync.buffer.openGroup.defaultKey .enter mods = s.sync.buffer.openGroup.insertAtCursor ['\n'] := by
      simp only [Buffer.defaultKey, Buffer.typeText, Buffer.deleteSelection, hsel', Bool.false_eq_true, if_false]
    simp only [grouped, mapBuffer, Buffer.grouped, hdefault]
    exact hbreak.closeGroup
  · exact ⟨[], by decide, (Buffer.putsInk_of_keepsInk (Buffer.keepsInk_plainEnter hwithin)).closeGroup⟩
  · obtain ⟨u, hu, hputs⟩ := Buffer.putsInk_bracketEnter hwithin s.sync.enterContext
    exact ⟨u, hu, hputs.closeGroup⟩

theorem brace_putsInk (c : Char) (mods : Modifiers) (h : (s.handleKey (.char c) mods).1 = .handled) :
    (c = '}' ∨ c = '{') ∧ s.buffer.PutsInk [c] (s.handleKey (.char c) mods).2.buffer := by
  rw [← s.sync_buffer]
  rw [handleKey_char] at h ⊢
  dsimp only at h ⊢
  split_ifs at h ⊢ with hcode hclose hopen
  · subst hclose
    exact ⟨Or.inl rfl, (Buffer.putsInk_closeBrace _ _).closeGroup⟩
  · subst hopen
    have hdone : (s.sync.buffer.openGroup.openBrace s.sync.unit).1 = true := by
      by_contra hno
      simp [tryGrouped, groupedWith, hno] at h
    exact ⟨Or.inr rfl, (Buffer.putsInk_openBrace hdone).closeGroup⟩

/-! ## A line that melts -/

/-- a line of `n` blanks between a CR and an LF, then two lines of which the first is indented -/
def meltingText (n : Nat) : Text :=
  '\r' :: (List.replicate n ' ' ++ '\n' :: (List.replicate n ' ' ++ ['a', '\n', 'b']))

/-- a session with that text, its first three lines selected, and an indent unit of `n` spaces -/
def melting (n : Nat) : Session :=
  (ofText [] (.ofId none) .default).run
    [.setUnit ' ' n, .buffer (.insert 0 (meltingText n)), .buffer (.select 0 (2 * n + 2))]

theorem breakEnds_meltingText {n : Nat} (hn : 0 < n) : (meltingText n).breakEnds = [1, n + 2, 2 * n + 4] := by
  obtain ⟨m, rfl⟩ : ∃ m, n = m + 1 := ⟨n - 1, by omega⟩
  have hhead : ¬ ('\r' = '\r' ∧
      (List.replicate (m + 1) ' ' ++ '\n' :: (List.replicate (m + 1) ' ' ++ ['a', '\n', 'b'])).head? = some '\n') := by
    simp [List.replicate_succ]
  rw [Text.breakEnds, meltingText, Text.breakEndsFrom_cons _ _ _ hhead, Text.breakEndsFrom_blanks,
    Text.breakEndsFrom_cons _ _ _ (by simp), Text.breakEndsFrom_blanks]
  simp [Text.breakEndsFrom, isBreak]
  omega

theorem length_meltingText (n : Nat) : (meltingText n).length = 2 * n + 5 := by
  simp [meltingText]; omega

theorem melting_state {n : Nat} (hn : 0 < n) :
    (melting n).buffer.text = meltingText n ∧ (melting n).buffer.marks = ⟨0, 2 * n + 2⟩ ∧
    (melting n).unit = ⟨' ', n, rfl, hn⟩ := by
  have hmake : IndentUnit.make ' ' n = .ok ⟨' ', n, rfl, hn⟩ := by simp [IndentUnit.make, isBlank, hn]
  have htext : ((Buffer.ofText []).insert 0 (meltingText n)).text = meltingText n := by
    simp [Buffer.insert, Buffer.ofText, Edit.apply, meltingText]
  have hmelting : (melting n).buffer = ((Buffer.ofText []).insert 0 (meltingText n)).select 0 (2 * n + 2) ∧
      (melting n).unit = ⟨' ', n, rfl, hn⟩ := by
    simp only [melting, run, List.foldl, step, hmake]
    exact ⟨rfl, rfl⟩
  refine ⟨?_, ?_, hmelting.2⟩
  · rw [hmelting.1]; exact htext
  · rw [hmelting.1]
    simp only [Buffer.select, Buffer.clamp, Buffer.length, htext, length_meltingText]
    rw [min_eq_left (by omega), min_eq_left (by omega)]

theorem lines_meltingText {n : Nat} (hn : 0 < n) :
    (meltingText n).lineOf 0 = 0 ∧ (meltingText n).lineOf (2 * n + 2) = 2 ∧
      (meltingText n).lineStart 0 = 0 ∧ (meltingText n).lineStart 1 = 1 ∧ (meltingText n).lineStart 2 = n + 2 ∧
      (meltingText n).lineEnd 0 = 0 ∧ (meltingText n).lineEnd 1 = n + 1 ∧ (meltingText n).lineEnd 2 = 2 * n + 3 := by
  have hbreaks := breakEnds_meltingText hn
  have hlines : (meltingText n).lineCount = 4 := by rw [Text.lineCount, hbreaks]; rfl
  have hle : n + 2 ≤ 2 * n + 2 := by omega
  simp [Text.lineOf, Text.lineStart, Text.lineEnd, Text.clampLine, hlines, hbreaks, hle]

theorem indents_meltingText {n : Nat} (hn : 0 < n) :
    ((meltingText n).lineIndent 1).length = n ∧ ((meltingText n).lineIndent 2).length = n := by
  obtain ⟨-, -, -, hstart1, hstart2, -, hend1, hend2⟩ := lines_meltingText hn
  have hblank : ∀ c ∈ List.replicate n ' ', isBlank c = true := List.all_eq_true.1 (Text.allBlank_replicate rfl n)
  have htail : (meltingText n).drop (n + 2) = List.replicate n ' ' ++ ['a', '\n', 'b'] := by
    simp [meltingText, List.drop_append]
  have hslice1 : (meltingText n).slice 1 (n + 1) = List.replicate n ' ' := by
    simp [meltingText, Text.slice]
  have hslice2 : (meltingText n).slice (n + 2) (2 * n + 3) = List.replicate n ' ' ++ ['a'] := by
    rw [Text.slice, htail, show 2 * n + 3 - (n + 2) = n + 1 by omega]
    simp [List.take_append]
  constructor
  · rw [Text.lineIndent, hstart1, hend1, hslice1, Text.indentation, List.takeWhile_eq_self_iff.2 hblank,
      List.length_replicate]
  · rw [Text.lineIndent, hstart2, hend2, hslice2, Text.indentation, List.takeWhile_append_of_pos hblank]
    simp [isBlank]

/-- the two indented lines are those that lose blanks, `n` each -/
theorem melting_unindent {n : Nat} (hn : 0 < n) :
    (melting n).buffer.unindentable = [1, 2] ∧ (melting n).buffer.unindentWidth (melting n).unit = n := by
  obtain ⟨htext, hmarks, hunit⟩ := melting_state hn
  obtain ⟨hfirst, hlast, hstart0, hstart1, hstart2, hend0, hend1, hend2⟩ := lines_meltingText hn
  have hselected : (melting n).buffer.selectedLines = [0, 1, 2] := by
    simp [Buffer.selectedLines, Buffer.selectionStart, Buffer.selectionEnd, Buffer.hasSelection, htext, hmarks,
      hfirst, hlast, List.range', hstart0, hstart1, hstart2]
    omega
  have hunindentable : (melting n).buffer.unindentable = [1, 2] := by
    simp [Buffer.unindentable, hselected, htext, hstart0, hstart1, hstart2, hend0, hend1, hend2]
    omega
  refine ⟨hunindentable, ?_⟩
  obtain ⟨hindent1, hindent2⟩ := indents_meltingText hn
  rw [Buffer.unindentWidth, hunindentable, htext, hunit]
  simp [hindent1, hindent2]

theorem ink_blanks (n : Nat) : Text.ink (List.replicate n ' ') = [] :=
  Text.ink_of_allBlank (Text.allBlank_replicate rfl n)

/-- the CR and the LF become one break, and what was the last line loses its only character -/
theorem outdent_meltingText {n : Nat} (hn : 0 < n) :
    ((meltingText n).outdent n 1).outdent n 2 = '\r' :: '\n' :: (List.replicate n ' ' ++ ['a', '\n']) := by
  obtain ⟨-, -, -, hstart, -⟩ := lines_meltingText hn
  have hmelted : (meltingText n).outdent n 1 = ('\r' :: '\n' :: (List.replicate n ' ' ++ ['a', '\n'])) ++ ['b'] := by
    rw [Text.outdent, hstart]
    simp [meltingText, Nat.add_comm 1 n]
  have hbreaks : Text.breakEnds (('\r' :: '\n' :: (List.replicate n ' ' ++ ['a', '\n'])) ++ ['b']) = [2, n + 4] := by
    rw [Text.breakEnds, List.cons_append, List.cons_append, Text.breakEndsFrom, List.append_assoc,
      Text.breakEndsFrom_blanks]
    simp [Text.breakEndsFrom, isBreak]
    omega
  have hlen : ('\r' :: '\n' :: (List.replicate n ' ' ++ ['a', '\n'])).length = n + 4 := by simp
  have hlast : Text.lineStart (('\r' :: '\n' :: (List.replicate n ' ' ++ ['a', '\n'])) ++ ['b']) 2 = n + 4 := by
    rw [Text.lineStart_succ (by rw [hbreaks]; simp)]
    simp only [hbreaks]
    rfl
  rw [hmelted, Text.outdent, hlast, ← hlen, List.take_left, List.drop_eq_nil_of_le, List.append_nil]
  rw [List.length_append, List.length_singleton]
  omega

/-- **A line that melts can cost ink**, whatever the width of the unit. -/
theorem melting_loses_ink {n : Nat} (hn : 0 < n) :
    (melting n).Reachable ∧ (melting n).buffer.unindentWidth (melting n).unit = n ∧
      ∀ mods, Text.ink ((melting n).pressKey .backTab mods).text ≠ Text.ink (melting n).text := by
  obtain ⟨htext, -, -⟩ := melting_state hn
  obtain ⟨hlines, hwidth⟩ := melting_unindent hn
  refine ⟨⟨_, _, _, _, rfl⟩, hwidth, fun mods => ?_⟩
  have hpress : ((melting n).pressKey .backTab mods).text = ((meltingText n).outdent n 1).outdent n 2 := by
    rw [unindent_text _ (Or.inr rfl) rfl, Buffer.unindentLines_text, hlines, hwidth, htext]; rfl
  have hbreak : ∀ c, c = '\r' ∨ c = '\n' → ∀ t, Text.ink (c :: t) = Text.ink t := by
    rintro c (rfl | rfl) t <;> exact Text.ink_cons_break rfl t
  rw [hpress, outdent_meltingText hn, text, htext]
  simp [meltingText, ink_blanks, hbreak]
  decide

/-- a CR typed in front of a line of one space: Tab with Shift over the three lines behind it takes the `b` away -/
theorem unindent_deletes_letter :
    let s :=
      (ofText " \n a\n b".toList (.ofId (some "cpp")) { Config.default with tabSize := 1, inferUnit := false }).run
      [.command (.press (.char '\r') .none), .buffer (.select 0 8)]
    s.Reachable ∧ s.text = "\r \n a\n b".toList ∧
      (s.pressKey .tab { Modifiers.none with shift := true }).text = "\r\n a\n".toList :=
  ⟨⟨_, _, _, _, rfl⟩, by decide, by decide⟩

/-- **Keys do not damage the text.** Let `before` and `behind` be the ink on the two sides of the cursor. Tab keeps the
ink. So do Backspace and Delete where they are handled. Enter without a selection adds to it, at the cursor's place, a
closing brace at most, and a character that is handled is a brace and is what is added. Tab with Shift keeps the ink
exactly if no removal bites, takes away exactly the blanks it is meant to exactly if no line is renumbered, and does not
bite then; every number of blanks can bite. -/
theorem keys_keep_ink (s : Session) (hs : s.Reachable) (mods : Modifiers) :
    let before := Text.ink (s.text.take s.buffer.cursor)
    let behind := Text.ink (s.text.drop s.buffer.cursor)
    (∀ key, key = .tab ∨ key = .backTab → key.isUnindent mods = false →
      Text.ink (s.pressKey key mods).text = Text.ink s.text) ∧
    (∀ key, key = .backspace ∨ key = .delete → (s.handleKey key mods).1 = .handled →
      Text.ink (s.handleKey key mods).2.text = Text.ink s.text) ∧
    (s.buffer.hasSelection = false → ∃ u ∈ [[], ['}'], ['}', ';']],
      Text.ink (s.pressKey .enter mods).text = before ++ u ++ behind) ∧
    (∀ c, (s.handleKey (.char c) mods).1 = .handled →
      (c = '}' ∨ c = '{') ∧ Text.ink (s.handleKey (.char c) mods).2.text = before ++ [c] ++ behind) ∧
    (∀ key, key = .tab ∨ key = .backTab → key.isUnindent mods = true →
      (Text.ink (s.pressKey key mods).text = Text.ink s.text ↔ ¬ s.buffer.Bites s.unit) ∧
      ((s.pressKey key mods).text = s.buffer.outdented s.unit ↔ ¬ s.buffer.Renumbers s.unit)) ∧
    (s.buffer.Bites s.unit → s.buffer.Renumbers s.unit) ∧
    (∀ n, 0 < n → ∃ s' : Session, s'.Reachable ∧ s'.buffer.unindentWidth s'.unit = n ∧
      ∀ mods, Text.ink (s'.pressKey .backTab mods).text ≠ Text.ink s'.text) := by
  intro before behind
  refine ⟨fun key hkey hindent => ?_, fun key hkey h => ?_, fun hsel => ?_, fun c h => ?_, fun key hkey hunindent => ?_,
    Buffer.Bites.renumbers, fun n hn => ?_⟩
  · exact (tab_keepsInk hkey hindent).ink_text
  · exact (deletion_keepsInk hs hkey mods h).ink_text
  · exact enter_putsInk hs mods hsel
  · exact brace_putsInk c mods h
  · rw [s.unindent_text hkey hunindent]
    exact ⟨Buffer.ink_unindentLines_eq_iff, Buffer.unindentLines_text_eq_iff⟩
  · exact ⟨melting n, melting_loses_ink hn⟩

/-- two indented lines, both selected -/
def twoLines : Session :=
  (ofText "  a\n  b".toList (.ofId (some "cpp")) { Config.default with inferUnit := false }).run [.buffer (.select 0 7)]

/-- neither line melts, so both lose a unit and no ink -/
theorem unindent_keeps_ink_of_two_lines :
    (twoLines.Reachable ∧ ¬ twoLines.buffer.Bites twoLines.unit ∧ ¬ twoLines.buffer.Renumbers twoLines.unit) ∧
      (twoLines.pressKey .backTab .none).text = "a\nb".toList ∧
      twoLines.buffer.outdented twoLines.unit = "a\nb".toList ∧
      Text.ink (twoLines.pressKey .backTab .none).text = Text.ink twoLines.text := by
  have hs : twoLines.Reachable := ⟨_, _, _, _, rfl⟩
  have hbites : ¬ twoLines.buffer.Bites twoLines.unit := by decide
  have hunindent := (keys_keep_ink twoLines hs .none).2.2.2.2.1 .backTab (Or.inr rfl) rfl
  exact ⟨⟨hs, hbites, by decide⟩, by decide, by decide, hunindent.1.2 hbites⟩

end Session

end CodeEditor
