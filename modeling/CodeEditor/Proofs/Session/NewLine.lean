import CodeEditor.Proofs.Keys.NewLine
import CodeEditor.Proofs.Session.Enter
/-!
Enter breaks the line of the cursor.

Without a selection Enter has three handlers: a plain line break at the start of a line, the copied indentation in
languages without braces and inside of literals, and the plans in code. Each of them puts an LF and blanks at the
cursor, which ends up behind the blanks, and keeps every break that there was. Only behind an opening brace a second LF
comes in (`enter_breaks_the_line`).
-/

namespace CodeEditor

theorem Buffer.BreaksLine.closeGroup {b d : Buffer} {more : Text} (h : b.openGroup.BreaksLine more d) :
    b.BreaksLine more d.closeGroup := by
  obtain ⟨before, indent, behind, hat, hbreaks⟩ := h
  exact ⟨before, indent, behind, ⟨hat.text, hat.marks⟩, hbreaks⟩

namespace Session

variable {s : Session}

/-- with an opening brace at its end, what is left before the cursor when the blanks around it are gone -/
def EndsInBrace (s : Session) : Prop :=
  0 < s.trimmed.cursor ∧ s.trimmed.text.charAt (s.trimmed.cursor - 1) = '{'

/-- the line of the cursor is broken. Behind `before` an LF comes in, and behind that blanks, with the cursor behind
them and nothing selected; so the line of the cursor starts behind the LF. All breaks before the cursor and behind it
stay, and `more` come in behind the cursor, one at most, and that only behind an opening brace -/
structure LineBroken (s s' : Session) (before indent behind more : Text) : Prop where
  text : s'.text = before ++ '\n' :: indent ++ behind
  blank : indent.allBlank = true
  marks : s'.buffer.marks = .both (before ++ '\n' :: indent).length
  start : s'.text.lineStart s'.buffer.cursorLine = before.length + 1
  breaksBefore : before.breaks = Text.breaks (s.text.take s.buffer.cursor)
  breaksBehind : behind.breaks = more ++ Text.breaks (s.text.drop s.buffer.cursor)
  brace : more = [] ∨ more = ['\n'] ∧ s.EndsInBrace

theorem enter_breaksLine (hs : s.Reachable) (hsel : s.buffer.hasSelection = false) (mods : Modifiers) :
    s.buffer.BreaksLine [] (s.pressKey .enter mods).buffer ∨
      s.buffer.BreaksLine ['\n'] (s.pressKey .enter mods).buffer ∧ s.EndsInBrace := by
  have hwithin : s.sync.buffer.openGroup.Within := by rw [sync_buffer]; exact hs.sound.buffer.within
  have hsel' : s.sync.buffer.openGroup.hasSelection = false := by rw [sync_buffer]; exact hsel
  have htrimmed : s.EndsInBrace ↔ 0 < s.sync.buffer.openGroup.trimAroundCursor.cursor ∧
      s.sync.buffer.openGroup.trimAroundCursor.text.charAt
        (s.sync.buffer.openGroup.trimAroundCursor.cursor - 1) = '{' := by
    obtain ⟨htext, hcursor⟩ := trimAroundCursor_openGroup s.buffer
    rw [sync_buffer, htext, hcursor]
    rfl
  rw [htrimmed, ← s.sync_buffer]
  simp only [pressKey, handleKey_enter s mods hsel]
  split_ifs
  · -- at a line start, a plain line break
    have hat := Buffer.at_cursor hwithin hsel'
    have hnone : Text.allBlank [] = true := rfl
    have hbreak := Buffer.breaksLine_insertAtCursor hat hnone
    have hdefault : s.sync.buffer.openGroup.defaultKey .enter mods = s.sync.buffer.openGroup.insertAtCursor ['\n'] := by
      rw [Buffer.defaultKey, Buffer.typeText, hat.deleteSelection]
    simp only [grouped, mapBuffer, Buffer.grouped, hdefault]
    exact .inl hbreak.closeGroup
  · exact .inl (Buffer.breaksLine_plainEnter hwithin hsel').closeGroup
  · rcases Buffer.breaksLine_bracketEnter hwithin hsel' _ with hone | ⟨htwo, hbrace⟩
    · exact .inl hone.closeGroup
    · exact .inr ⟨htwo.closeGroup, hbrace⟩

/-- **Enter breaks the line**, whatever the language, the text and the spans. One LF comes in at the cursor, or two
behind an opening brace, no break goes and no other one comes in, and the cursor ends up on the first new line with
blanks only before it. -/
theorem enter_breaks_the_line (hs : s.Reachable) (hsel : s.buffer.hasSelection = false) (mods : Modifiers) :
    ∃ before indent behind more, s.LineBroken (s.pressKey .enter mods) before indent behind more := by
  obtain ⟨more, ⟨before, indent, behind, hat, hblank, hbefore, hbehind⟩, hbrace⟩ :
      ∃ more, s.buffer.BreaksLine more (s.pressKey .enter mods).buffer ∧
      (more = [] ∨ more = ['\n'] ∧ s.EndsInBrace) := by
    rcases enter_breaksLine hs hsel mods with hone | ⟨htwo, hbrace⟩
    · exact ⟨[], hone, .inl rfl⟩
    · exact ⟨['\n'], htwo, .inr ⟨rfl, hbrace⟩⟩
  have hstart : (s.pressKey .enter mods).text.lineStart (s.pressKey .enter mods).buffer.cursorLine =
    before.length + 1 := by
    rw [text, Buffer.cursorLine, hat.cursor, hat.text]
    exact Text.lineStart_behind_blanks hblank before behind
  exact ⟨before, indent, behind, more, hat.text, hblank, hat.marks, hstart, hbefore, hbehind, hbrace⟩

/-- a block that is not closed, with the cursor behind its brace and a blank -/
def inOpenBlock : Session :=
  (ofText ['\r', '{', ' ', '\u2028'] (.ofId (some "cpp")) { Config.default with inferUnit := false }).run
    [.buffer (.placeCursor 3)]

/-- the block gets a line of its own and a closing brace behind that; the other break is still there -/
theorem enter_opens_block :
    (inOpenBlock.Reachable ∧ inOpenBlock.buffer.hasSelection = false) ∧
      (inOpenBlock.pressKey .enter .none).text = "\n\x7b\n  \n\x7d\u2028".toList ∧
      ∃ before indent behind more, inOpenBlock.LineBroken
        (inOpenBlock.pressKey .enter .none) before indent behind more := by
  have hs : inOpenBlock.Reachable := ⟨_, _, _, _, rfl⟩
  have hsel : inOpenBlock.buffer.hasSelection = false := by decide
  exact ⟨⟨hs, hsel⟩, by decide, enter_breaks_the_line hs hsel .none⟩

end Session

end CodeEditor
