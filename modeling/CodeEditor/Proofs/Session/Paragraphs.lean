import CodeEditor.Proofs.Session.Run
import CodeEditor.Proofs.Text.LineStarts
/-!
Moving by paragraph.

Both walks begin at the start of the cursor's line. The one up never passes it again (`previousParagraph_le`). The one
down stops only on a blank line behind some text; such a line starts behind the start of the walk
(`ParagraphScan.Seen`), so it is a later one. Where there is none, the walk ends with the text, and the cursor goes to
the start of the last line. From the last line itself that is a move back, against the arrow; from every other one it is
a move on (`nextParagraph_cases`).
-/

namespace CodeEditor

variable {t : Text} {start offset : Nat}

/-! ## The walk down -/

namespace ParagraphScan

variable {s : ParagraphScan}

/-- what a walk down from `start` has seen before `offset`: text only behind its start, and behind text a blank line
only where a line starts behind `start` -/
structure Seen (t : Text) (start offset : Nat) (s : ParagraphScan) : Prop where
  text : s.textFound = true → start < offset
  blank : s.textFound = true → s.blankLine = true → ∃ edge, start < edge ∧ edge < offset ∧ t.startsLine edge = true

theorem seen_initial (t : Text) (start : Nat) : initial.Seen t start start :=
  ⟨nofun, nofun⟩

/-- **One character** -/
theorem Seen.read (h : s.Seen t start offset) (hle : start ≤ offset) :
    (s.read t (t.startsLine offset) offset).Seen t start (offset + 1) := by
  rw [ParagraphScan.read]
  split_ifs
  · refine ⟨fun htext => (h.text htext).trans (Nat.lt_succ_self _), fun htext hblank => ?_⟩
    rcases Bool.or_eq_true_iff.1 hblank with hbefore | hedge
    · obtain ⟨edge, hlt, hbehind, hstarts⟩ := h.blank htext hbefore
      exact ⟨edge, hlt, hbehind.trans (Nat.lt_succ_self _), hstarts⟩
    · -- text has been found, so the walk is past its start, and a line starts here
      exact ⟨offset, h.text htext, Nat.lt_succ_self _, hedge⟩
  · exact ⟨fun _ => Nat.lt_succ_of_le hle, nofun⟩

/-- **The walk** goes to the end of the text, or stops behind the start of a later line. -/
theorem Seen.paragraphEnd (h : s.Seen t start offset) (hle : start ≤ offset) (n : Nat) :
    paragraphEnd t s (List.range' offset n) = t.length ∨
      ∃ edge, start < edge ∧ edge ≤ paragraphEnd t s (List.range' offset n) ∧ t.startsLine edge = true := by
  induction n generalizing s offset with
  | zero => exact .inl rfl
  | succ n ih =>
    have hread := h.read hle
    rw [List.range'_succ, CodeEditor.paragraphEnd]
    split_ifs with hstop
    · rw [Bool.and_eq_true_iff, isBoundary, Bool.and_eq_true_iff] at hstop
      obtain ⟨edge, hlt, hbehind, hstarts⟩ := hread.blank hstop.1.2 hstop.1.1
      exact .inr ⟨edge, hlt, Nat.le_of_lt_succ hbehind, hstarts⟩
    · exact ih hread (hle.trans (Nat.le_succ _))

end ParagraphScan

/-- **Down** is on to the start of a later line, or from the last line to its own start. -/
theorem nextParagraph_cases (t : Text) (offset : Nat) :
    (t.lineOf offset + 1 < t.lineCount ∧ offset < nextParagraph t offset) ∨
      (t.lineOf offset + 1 = t.lineCount ∧ nextParagraph t offset = t.lineStart (t.lineOf offset)) := by
  have hline := t.lineOf_lt offset
  rw [nextParagraph]
  set start := t.lineStart (t.lineOf offset) with hstart
  set stop := paragraphEnd t .initial (List.range' start (t.length - start)) with hstop
  have hlater : t.lineOf offset < t.lineOf stop →
    t.lineOf offset + 1 < t.lineCount ∧ offset < t.lineStart (t.lineOf stop) := by
    intro hlt
    have hstop_lt := t.lineOf_lt stop
    exact ⟨by omega, (Text.lt_lineStart_iff hstop_lt).2 hlt⟩
  rcases (ParagraphScan.seen_initial t start).paragraphEnd le_rfl (t.length - start) with hend |
    ⟨edge, hlt, hle, hstarts⟩
  · rw [← hstop] at hend
    have hlast := t.lineOf_length
    rw [← hend] at hlast
    by_cases hsame : t.lineOf offset = t.lineOf stop
    · exact .inr ⟨by rw [hsame, hlast], by rw [hstart, hsame]⟩
    · exact .inl (hlater (by omega))
  · refine .inl (hlater ?_)
    have hedge := Text.lineStart_lineOf_of_mem (Text.mem_breakEnds_of_startsLine (by omega) hstarts)
    have hlines : t.lineOf offset < t.lineOf edge := by
      rw [← Text.lineStart_lt_lineStart_iff hline (t.lineOf_lt edge), hedge]
      exact hlt
    exact hlines.trans_le (t.lineOf_mono hle)

/-! ## The walk up -/

/-- the walk up stops no later than it starts -/
theorem paragraphStart_le (t : Text) (s : ParagraphScan) (offset : Nat) : (paragraphStart t s offset).2 ≤ offset := by
  induction offset generalizing s with
  | zero => exact le_rfl
  | succ offset ih =>
    rw [paragraphStart]
    split_ifs
    · exact le_rfl
    · exact (ih _).trans (Nat.le_succ _)

/-- **Up** is never behind the start of the line. -/
theorem previousParagraph_le (t : Text) (offset : Nat) :
    previousParagraph t offset ≤ t.lineStart (t.lineOf offset) := by
  have hline := t.lineOf_lt offset
  rw [previousParagraph]
  split
  · exact Nat.zero_le _
  · rename_i before hbefore
    have hle := paragraphStart_le t .initial before
    split
    · -- the walk ended on a blank line above, and the line behind that one is no later than this one
      rename_i stop hwalk
      rw [hwalk] at hle
      have habove : t.lineOf stop < t.lineOf offset := (Text.lt_lineStart_iff hline).1 (by omega)
      have hend := Text.lineEnd_lt_lineStart habove hline
      omega
    · rename_i stop hwalk
      rw [hwalk] at hle
      omega

/-! ## The keys -/

namespace Buffer

/-- where the cursor goes -/
def paragraphTarget (b : Buffer) (down : Bool) : Nat :=
  if down then nextParagraph b.text b.cursor else previousParagraph b.text b.cursor

theorem paragraphTarget_le_length (b : Buffer) (down : Bool) : b.paragraphTarget down ≤ b.text.length := by
  cases down with
  | false => exact (previousParagraph_le _ _).trans (b.text.lineStart_le_length _)
  | true => exact b.text.lineStart_le_length _

/-- a move by a paragraph moves the marks and changes nothing else -/
theorem moveParagraph_eq {b : Buffer} (hb : b.Within) (down extend : Bool) : b.moveParagraph down extend =
    { b with marks := ⟨b.paragraphTarget down, if extend then b.marks.bound else b.paragraphTarget down⟩ } := by
  have htarget : b.clamp (b.paragraphTarget down) = b.paragraphTarget down :=
    min_eq_left (b.paragraphTarget_le_length down)
  have hbound : b.clamp b.marks.bound = b.marks.bound := min_eq_left hb.2
  rw [moveParagraph, ← paragraphTarget]
  cases extend with
  | false => simp only [Bool.false_eq_true, if_false, placeCursor, htarget, Marks.both]
  | true => simp only [if_true, select, htarget, hbound]

end Buffer

namespace Session

theorem pressKey_paragraph (s : Session) {key : Key} (hkey : key = .up ∨ key = .down) {mods : Modifiers}
    (hcontrol : mods.control = true) :
    (s.pressKey key mods).buffer = s.buffer.moveParagraph (key == .down) mods.shift := by
  have hmove : s.handleKey key mods =
    (.handled, s.sync.mapBuffer fun b => b.moveParagraph (key == .down) mods.shift) := by
    rcases hkey with rfl | rfl <;> simp [handleKey, hcontrol]
  rw [pressKey, hmove, mapBuffer, sync_buffer]

/-- **Paragraph keys and their arrows.** With Control, Up never moves the cursor on. Down never moves it back,
except on the last line behind its start, where it moves back to that start. The keys move the marks alone, and with
Shift the cursor alone. -/
theorem paragraph_keys_follow_arrows (s : Session) (hs : s.buffer.Within) {mods : Modifiers}
    (hcontrol : mods.control = true) :
    let b := s.buffer
    let up := (s.pressKey .up mods).buffer
    let down := (s.pressKey .down mods).buffer
    up.cursor ≤ b.cursor ∧
      (b.cursor ≤ down.cursor ↔ b.cursorLine + 1 < b.text.lineCount ∨ b.cursor = b.text.lineStart b.cursorLine) ∧
      (down.cursor < b.cursor → down.cursor = b.text.lineStart b.cursorLine) ∧
      up = { b with marks := ⟨up.cursor, if mods.shift then b.marks.bound else up.cursor⟩ } ∧
      down = { b with marks := ⟨down.cursor, if mods.shift then b.marks.bound else down.cursor⟩ } := by
  intro b up down
  have hup :
    up = { b with marks := ⟨b.paragraphTarget false, if mods.shift then b.marks.bound else b.paragraphTarget false⟩ } :=
    (s.pressKey_paragraph (.inl rfl) hcontrol).trans (Buffer.moveParagraph_eq hs _ _)
  have hdown :
    down = { b with marks := ⟨b.paragraphTarget true, if mods.shift then b.marks.bound else b.paragraphTarget true⟩ } :=
    (s.pressKey_paragraph (.inr rfl) hcontrol).trans (Buffer.moveParagraph_eq hs _ _)
  have hup_cursor : up.cursor = previousParagraph b.text b.cursor := congrArg Buffer.cursor hup
  have hdown_cursor : down.cursor = nextParagraph b.text b.cursor := congrArg Buffer.cursor hdown
  have hstart : b.text.lineStart b.cursorLine ≤ b.cursor := b.text.lineStart_lineOf_le b.cursor
  have hnext := nextParagraph_cases b.text b.cursor
  rw [← hdown_cursor, ← Buffer.cursorLine] at hnext
  refine ⟨?_, by omega, by omega, ?_, ?_⟩
  · rw [hup_cursor]
    exact (previousParagraph_le b.text b.cursor).trans hstart
  · rw [hup_cursor]
    exact hup
  · rw [hdown_cursor]
    exact hdown

/-- two paragraphs with a blank line between them: from the middle of the first, Down with Shift goes to the blank line,
and Up goes to the start of the text -/
theorem paragraph_keys_between_two_paragraphs :
    let s := (ofText "p1\n\np2".toList (.ofId none) .default).run [.buffer (.placeCursor 1)]
    let mods : Modifiers := { Modifiers.none with control := true, shift := true }
    let b := s.buffer
    (b.Within ∧ mods.control = true ∧ b.cursorLine + 1 < b.text.lineCount) ∧
      (s.pressKey .up mods).buffer.cursor ≤ b.cursor ∧ b.cursor ≤ (s.pressKey .down mods).buffer.cursor ∧
      (s.pressKey .up mods).buffer = { b with marks := ⟨0, 1⟩ } ∧
      (s.pressKey .down mods).buffer = { b with marks := ⟨3, 1⟩ } := by
  intro s mods b
  have hwithin : b.Within := ⟨by decide, by decide⟩
  have hcontrol : mods.control = true := rfl
  have hbefore : b.cursorLine + 1 < b.text.lineCount := by decide
  have hup_cursor : (s.pressKey .up mods).buffer.cursor = 0 := by decide
  have hdown_cursor : (s.pressKey .down mods).buffer.cursor = 3 := by decide
  obtain ⟨hle, hge, -, hup, hdown⟩ := paragraph_keys_follow_arrows s hwithin hcontrol
  rw [hup_cursor] at hup
  rw [hdown_cursor] at hdown
  exact ⟨⟨hwithin, hcontrol, hbefore⟩, hle, hge.2 (.inl hbefore), hup, hdown⟩

/-- at the end of the only line, Down goes back to its start -/
theorem paragraph_down_goes_back :
    let s := (ofText ['a'] (.ofId none) .default).run [.buffer (.placeCursor 1)]
    let mods : Modifiers := { Modifiers.none with control := true }
    s.Reachable ∧ s.text = ['a'] ∧ s.buffer.cursor = 1 ∧ (s.pressKey .down mods).buffer.cursor = 0 ∧
      ¬ s.buffer.cursor ≤ (s.pressKey .down mods).buffer.cursor := by
  intro s mods
  have hs : s.Reachable := ⟨_, _, _, _, rfl⟩
  exact ⟨hs, by decide, by decide, by decide, by decide⟩

end Session

end CodeEditor
