import CodeEditor.Proofs.Session.Tab
/-!
Tab with Shift over several lines: all of them or none, and from each the same.

One flush line among the selected ones stops the key, and it leaves no trace then. Otherwise one number of blanks goes
from the start of every selected line that has characters, and that number is the least of one unit and their
indentations (`unindent_all_or_none`). The lines are found again by their numbers while blanks are taken away, though,
and a line that melts leaves the numbers behind it wrong. So the blanks go where they should exactly if no line is
renumbered, and the lines are afterwards what they should be exactly if none melts.
-/

namespace CodeEditor.Session

/-- **Tab with Shift takes from all lines or from none, and the same from each.** The lines that count are the selected
ones with characters. If there is none, or one of them is flush, text, marks and history stay. Else one number of blanks
is to go from all of them. Those blanks and nothing else are gone exactly if no line is renumbered, and every line is
left with what it should be, in its place, exactly if none melts. -/
theorem unindent_all_or_none (s : Session) {key : Key} {mods : Modifiers} (hunindent : key.isUnindent mods = true) :
    let b := s.buffer
    let c := (s.pressKey key mods).buffer
    (∀ line, line ∈ b.unindentable ↔ line ∈ b.selectedLines ∧ b.text.lineText line ≠ []) ∧
    (b.unindentable = [] ∨ b.Flush → b.Untouched c) ∧
    (¬ (b.unindentable = [] ∨ b.Flush) → ∃ n, b.UnindentsBy s.unit n ∧
      (c.text = b.text.withoutStarts n b.unindentable ↔ ¬ b.text.Renumbers n b.unindentable) ∧
      (b.text.LosesStarts c.text n b.unindentable ↔ ∀ line ∈ b.unindentable, ¬ b.text.Melts n line)) := by
  intro b c
  have hbuffer : c = (b.openGroup.unindentLines s.unit).closeGroup := s.unindent_buffer hunindent
  refine ⟨fun line => Buffer.mem_unindentable, fun hflush => ?_, fun hflush => ?_⟩
  · have hsame : b.openGroup.unindentLines s.unit = b.openGroup := Buffer.unindentLines_of_flush hflush
    rw [hbuffer, hsame]
    exact b.untouched_group
  · have hnot : ¬ b.Flush := fun h => hflush (.inr h)
    have htext : c.text = (b.openGroup.unindentLines s.unit).text := by rw [hbuffer]; rfl
    refine ⟨b.unindentWidth s.unit, b.unindentsBy_unindentWidth s.unit hnot, ?_, ?_⟩
    · have hmeant : b.openGroup.outdented s.unit = b.text.withoutStarts (b.unindentWidth s.unit) b.unindentable :=
        Buffer.outdented_eq_withoutStarts
      rw [htext, ← hmeant]
      exact Buffer.unindentLines_text_eq_iff
    · rw [htext]
      exact Buffer.losesStarts_unindentLines_iff (b := b.openGroup)

/-- two indented lines with an empty one between them and a flush one behind, selected up to an offset -/
def fourLines (stop : Nat) : Session :=
  (ofText "  a\n\n   b\nc".toList (.ofId (some "cpp")) { Config.default with inferUnit := false }).run
    [.buffer (.select 0 stop)]

/-- up to the start of the flush line, the less indented of the two lines loses all of its blanks and the other one as
many; with the flush line, nothing happens -/
theorem unindent_two_of_four_lines :
    let two := fourLines 10
    let all := fourLines 11
    (Key.isUnindent .backTab .none = true ∧ ¬ (two.buffer.unindentable = [] ∨ two.buffer.Flush) ∧
      all.buffer.Flush) ∧
      two.buffer.UnindentsBy two.unit 2 ∧ two.text.LosesStarts (two.pressKey .backTab .none).text 2 [0, 2] ∧
      (two.pressKey .backTab .none).text = "a\n\n b\nc".toList ∧
      all.buffer.Untouched (all.pressKey .backTab .none).buffer := by
  intro two all
  have hkey : Key.isUnindent .backTab .none = true := rfl
  have hlines : two.buffer.unindentable = [0, 2] := by decide
  have hindented : ¬ (two.buffer.unindentable = [] ∨ two.buffer.Flush) := by decide
  have hflush : all.buffer.Flush := by decide
  obtain ⟨-, -, htakes⟩ := unindent_all_or_none two hkey
  obtain ⟨-, hstops, -⟩ := unindent_all_or_none all hkey
  obtain ⟨n, hn, -, hloses⟩ := htakes hindented
  have hwidth : n = 2 := hn.eq_unindentWidth.trans (by decide)
  have hmelts : ∀ line ∈ two.buffer.unindentable, ¬ two.buffer.text.Melts 2 line := by decide
  rw [hwidth] at hn hloses
  have hstarts := hloses.2 hmelts
  rw [hlines] at hstarts
  exact ⟨⟨hkey, hindented, hflush⟩, hn, hstarts, by decide, hstops (.inr hflush)⟩

/-- a CR typed in front of a line of one space: of the lines behind it the first two are selected, and Tab with Shift
takes the `b` away from the third -/
theorem unindent_reaches_unselected_line :
    let s :=
      (ofText " \n a\nb".toList (.ofId (some "cpp")) { Config.default with tabSize := 1, inferUnit := false }).run
      [.command (.press (.char '\r') .none), .buffer (.select 1 5)]
    let s' := s.pressKey .tab { Modifiers.none with shift := true }
    s.Reachable ∧ s.text = "\r \n a\nb".toList ∧ s.buffer.unindentable = [1, 2] ∧ s.buffer.unindentWidth s.unit = 1 ∧
      s.text.withoutStarts 1 [1, 2] = "\r\na\nb".toList ∧ s'.text = "\r\n a\n".toList ∧
      ¬ s.text.LosesStarts s'.text 1 [1, 2] := by
  intro s s'
  have hcount : s'.text.lineCount ≠ s.text.lineCount := by decide
  exact ⟨⟨_, _, _, _, rfl⟩, by decide, by decide, by decide, by decide, by decide, fun h => hcount h.lineCount⟩

end CodeEditor.Session
