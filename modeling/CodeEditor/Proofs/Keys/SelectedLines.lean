import CodeEditor.Comment
import CodeEditor.Keys.IndentLines
import CodeEditor.Proofs.Text.LineStarts
/-!
The lines under a selection, for Tab and for comments.

Both leave a line out that the selection only touches at its start, but they ask in different ways: Tab compares with
the start of the line (`mem_selectedLines`), a toggle of comments asks whether an LF stands before the end of the
selection (`mem_commentRange`). A line may start behind another break as well. So the two agree on all lines exactly if
the selection does not end just past a break other than LF (`tab_and_toggle_take_the_same_lines`).
-/

namespace CodeEditor.Buffer

variable {b : Buffer} {line : Nat}

theorem selectionStart_lt_selectionEnd (hsel : b.hasSelection = true) : b.selectionStart < b.selectionEnd := by
  have hne : b.marks.insert ≠ b.marks.bound := by simpa [hasSelection] using hsel
  rw [selectionStart, selectionEnd]
  omega

/-- **The lines for Tab**: from the line where the selection starts, all that start before it ends -/
theorem mem_selectedLines (hsel : b.hasSelection = true) : line ∈ b.selectedLines ↔
    b.text.lineOf b.selectionStart ≤ line ∧ line < b.text.lineCount ∧ b.text.lineStart line < b.selectionEnd := by
  have hlast := b.text.lineOf_lt b.selectionEnd
  simp only [selectedLines, List.mem_filter, List.mem_range'_1, hsel, Bool.not_true, Bool.false_or, bne_iff_ne]
  constructor
  · rintro ⟨⟨hfirst, hline⟩, hne⟩
    have hlt : line < b.text.lineCount := by omega
    have hle : b.text.lineStart line ≤ b.selectionEnd := (Text.lineStart_le_iff hlt).2 (by omega)
    exact ⟨hfirst, hlt, hle.lt_of_ne hne⟩
  · rintro ⟨hfirst, hlt, hstart⟩
    have hle : line ≤ b.text.lineOf b.selectionEnd := (Text.lineStart_le_iff hlt).1 hstart.le
    exact ⟨⟨hfirst, by omega⟩, hstart.ne⟩

/-- where a selection ends behind an LF, its last line starts there, and it is not its first line -/
theorem lineOf_lt_of_startsLine (hsel : b.hasSelection = true) (h : b.text.startsLine b.selectionEnd = true) :
    b.text.lineStart (b.text.lineOf b.selectionEnd) = b.selectionEnd ∧
      b.text.lineOf b.selectionStart < b.text.lineOf b.selectionEnd := by
  have hlt := selectionStart_lt_selectionEnd hsel
  have hstart := Text.lineStart_lineOf_of_mem (Text.mem_breakEnds_of_startsLine (by omega) h)
  refine ⟨hstart, (Text.lt_lineStart_iff (b.text.lineOf_lt _)).1 ?_⟩
  rw [hstart]
  exact hlt

/-- **The lines for a toggle**: those for Tab, and one that starts where the selection ends unless
an LF stands before it -/
theorem mem_commentRange (hsel : b.hasSelection = true) : line ∈ b.commentRange ↔
    b.text.lineOf b.selectionStart ≤ line ∧ line < b.text.lineCount ∧
      (b.text.lineStart line < b.selectionEnd ∨
        b.text.lineStart line = b.selectionEnd ∧ b.text.startsLine b.selectionEnd = false) := by
  have hlast := b.text.lineOf_lt b.selectionEnd
  simp only [commentRange, List.mem_range'_1]
  cases hlf : b.text.startsLine b.selectionEnd with
  | false =>
    simp only [Bool.and_false, Bool.false_eq_true, if_false, and_true, ← Nat.le_iff_lt_or_eq]
    constructor
    · rintro ⟨hfirst, hline⟩
      have hlt : line < b.text.lineCount := by omega
      exact ⟨hfirst, hlt, (Text.lineStart_le_iff hlt).2 (by omega)⟩
    · rintro ⟨hfirst, hlt, hstart⟩
      have hle := (Text.lineStart_le_iff hlt).1 hstart
      exact ⟨hfirst, by omega⟩
  | true =>
    obtain ⟨hstart, hfirst_lt⟩ := lineOf_lt_of_startsLine hsel hlf
    have hbefore : ∀ k < b.text.lineCount, b.text.lineStart k < b.selectionEnd ↔ k < b.text.lineOf b.selectionEnd := by
      intro k hk
      rw [← Text.lineStart_lt_lineStart_iff hk hlast, hstart]
    have hne : (b.text.lineOf b.selectionStart != b.text.lineOf b.selectionEnd) = true := bne_iff_ne.2 hfirst_lt.ne
    simp only [hne, Bool.and_self, if_true, Bool.true_eq_false, and_false, or_false]
    constructor
    · rintro ⟨hfirst, hline⟩
      have hlt : line < b.text.lineCount := by omega
      exact ⟨hfirst, hlt, (hbefore line hlt).2 (by omega)⟩
    · rintro ⟨hfirst, hlt, hbehind⟩
      have hline := (hbefore line hlt).1 hbehind
      exact ⟨hfirst, by omega⟩

/-- the selection ends at the start of a line, just past a break other than LF -/
def EndsPastOtherBreak (b : Buffer) : Prop :=
  b.selectionEnd ∈ b.text.breakEnds ∧ b.text.charAt (b.selectionEnd - 1) ≠ '\n'

instance (b : Buffer) : Decidable b.EndsPastOtherBreak :=
  inferInstanceAs (Decidable (_ ∧ _))

theorem endsPastOtherBreak_iff (hsel : b.hasSelection = true) : b.EndsPastOtherBreak ↔
    b.text.lineStart (b.text.lineOf b.selectionEnd) = b.selectionEnd ∧ b.text.startsLine b.selectionEnd = false := by
  have hpos : 0 < b.selectionEnd := (Nat.zero_le _).trans_lt (selectionStart_lt_selectionEnd hsel)
  rw [EndsPastOtherBreak, Text.lineStart_lineOf_eq_iff, Text.startsLine_eq hpos, or_iff_right hpos.ne',
    beq_eq_false_iff_ne]

/-- **A line that only a toggle takes** starts where the selection ends, past a break other than LF. -/
theorem mem_commentRange_iff (hsel : b.hasSelection = true) :
    line ∈ b.commentRange ↔ line ∈ b.selectedLines ∨ b.EndsPastOtherBreak ∧ line = b.text.lineOf b.selectionEnd := by
  rw [mem_commentRange hsel, mem_selectedLines hsel, endsPastOtherBreak_iff hsel]
  have hlast := b.text.lineOf_lt b.selectionEnd
  constructor
  · rintro ⟨hfirst, hlt, hbefore | ⟨hat, hlf⟩⟩
    · exact .inl ⟨hfirst, hlt, hbefore⟩
    · have hline : line = b.text.lineOf b.selectionEnd := by rw [← hat, Text.lineOf_lineStart hlt]
      exact .inr ⟨⟨hline ▸ hat, hlf⟩, hline⟩
  · rintro (⟨hfirst, hlt, hbefore⟩ | ⟨⟨hat, hlf⟩, rfl⟩)
    · exact ⟨hfirst, hlt, .inl hbefore⟩
    · exact ⟨b.text.lineOf_mono (selectionStart_lt_selectionEnd hsel).le, hlast, .inr ⟨hat, hlf⟩⟩

/-- **Tab and a toggle of comments take the same lines**, exactly if the selection does not end just past a break other
than LF. The lines are those from the start of the selection on that start before its end, so one that starts there is
left out; past another break, the toggle takes that line, too. -/
theorem tab_and_toggle_take_the_same_lines {b : Buffer} (hsel : b.hasSelection = true) :
    ((∀ line, line ∈ b.commentRange ↔ line ∈ b.selectedLines) ↔ ¬ b.EndsPastOtherBreak) ∧
      (∀ line, line ∈ b.selectedLines ↔
        b.text.lineOf b.selectionStart ≤ line ∧ line < b.text.lineCount ∧ b.text.lineStart line < b.selectionEnd) ∧
      (b.EndsPastOtherBreak → ∀ line, line ∈ b.commentRange ↔
        line ∈ b.selectedLines ∨ line = b.text.lineOf b.selectionEnd) := by
  refine ⟨⟨fun hsame hends => ?_, fun hends line => ?_⟩, fun line => mem_selectedLines hsel, fun hends line => ?_⟩
  · -- the line at the end of the selection would be one of Tab's
    have hline := (hsame _).1 ((mem_commentRange_iff hsel).2 (.inr ⟨hends, rfl⟩))
    obtain ⟨-, -, hbefore⟩ := (mem_selectedLines hsel).1 hline
    obtain ⟨hat, -⟩ := (endsPastOtherBreak_iff hsel).1 hends
    exact absurd hat hbefore.ne
  · rw [mem_commentRange_iff hsel, or_iff_left fun h => hends h.1]
  · rw [mem_commentRange_iff hsel, and_iff_right hends]

/-- a form feed in the first line, a blank line, and a selection up to the start of the last line -/
theorem same_lines_over_form_feed :
    let b := (ofText "a\x0cb\n\nc".toList).select 5 0
    b.hasSelection = true ∧ ¬ b.EndsPastOtherBreak ∧ b.selectedLines = [0, 1, 2] ∧ ∀ line, line ∈ b.commentRange ↔
      line ∈ b.selectedLines := by
  intro b
  have hsel : b.hasSelection = true := by decide
  have hends : ¬ b.EndsPastOtherBreak := by decide
  have hlines : b.selectedLines = [0, 1, 2] := by decide
  obtain ⟨hsame, -, -⟩ := tab_and_toggle_take_the_same_lines hsel
  exact ⟨hsel, hends, hlines, hsame.2 hends⟩

/-- a selection that ends past the form feed: Tab leaves the second line out, and a toggle comments it -/
theorem toggle_reaches_line_behind_form_feed :
    let b := (ofText "a\x0cb".toList).select 2 0
    b.hasSelection = true ∧ '\r' ∉ b.text ∧ b.text.lineStart 1 = b.selectionEnd ∧ b.selectedLines = [0] ∧
    b.commentRange = [0, 1] ∧
      ¬ (∀ line, line ∈ b.commentRange ↔ line ∈ b.selectedLines) ∧
      (b.toggleComments "//".toList).1 = .commented 2 ∧
      (b.toggleComments "//".toList).2.text = "// a\x0c// b".toList := by
  intro b
  have hselected : b.selectedLines = [0] := by decide
  have hrange : b.commentRange = [0, 1] := by decide
  have hdiffer : ¬ (∀ line, line ∈ b.commentRange ↔ line ∈ b.selectedLines) := by
    intro hsame
    have hone := (hsame 1).1 (by rw [hrange]; decide)
    rw [hselected] at hone
    exact absurd hone (by decide)
  exact ⟨by decide, by decide, by decide, hselected, hrange, hdiffer, by decide, by decide⟩

end CodeEditor.Buffer
