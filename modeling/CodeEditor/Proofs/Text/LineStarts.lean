import CodeEditor.Proofs.Text.Pieces
/-!
Where lines start.

An offset starts its line exactly if a break ends there, or it is the start of the text (`lineStart_lineOf_eq_iff`).
Behind an LF a line always starts (`mem_breakEnds_of_startsLine`), but not every line starts behind an LF.
-/

namespace CodeEditor.Text

variable {t : Text} {o k : Nat}

/-- of two lines, the later one starts later -/
theorem lineStart_lt_lineStart_iff {j : Nat} (hj : j < t.lineCount) (hk : k < t.lineCount) :
    t.lineStart j < t.lineStart k ↔ j < k := by
  rw [lt_lineStart_iff hk, lineOf_lineStart hj]

/-- a line ends before the next one starts -/
theorem lineEnd_lt_lineStart {j : Nat} (hjk : j < k) (hk : k < t.lineCount) : t.lineEnd j < t.lineStart k := by
  have hj : j < t.breakEnds.length := by rw [lineCount] at hk; omega
  have hpos := (isBreakEnd_of_mem (List.getElem_mem hj)).pos
  have hle := t.lineStart_mono (show j + 1 ≤ k from hjk)
  rw [lineStart_succ hj] at hle
  rw [lineEnd_of_lt hj]
  omega

/-- the end of the text is on the last line -/
theorem lineOf_length (t : Text) : t.lineOf t.length + 1 = t.lineCount := by
  rw [lineOf, lineCount, List.countP_eq_length.2]
  intro e he
  simpa using (isBreakEnd_of_mem he).le

theorem lineStart_lineOf_of_mem (h : o ∈ t.breakEnds) : t.lineStart (t.lineOf o) = o := by
  obtain ⟨k, hk, hend⟩ := List.getElem_of_mem h
  have hstart : t.lineStart (k + 1) = o := (lineStart_succ hk).trans hend
  have hline : k + 1 ≤ t.lineOf o := (lineStart_le_iff (by rw [lineCount]; omega)).1 hstart.le
  exact (t.lineStart_lineOf_le o).antisymm (hstart.ge.trans (t.lineStart_mono hline))

/-- **A line starts** at the start of the text and where a break ends. -/
theorem lineStart_lineOf_eq_iff : t.lineStart (t.lineOf o) = o ↔ o = 0 ∨ o ∈ t.breakEnds := by
  refine ⟨fun h => ?_, ?_⟩
  · cases hline : t.lineOf o with
    | zero =>
      rw [hline, lineStart_zero] at h
      exact .inl h.symm
    | succ k =>
      have hlt := t.lineOf_lt o
      have hk : k < t.breakEnds.length := by rw [hline, lineCount] at hlt; omega
      rw [hline, lineStart_succ hk] at h
      exact .inr (h ▸ List.getElem_mem hk)
  · rintro (rfl | h)
    · exact Nat.le_zero.1 (t.lineStart_lineOf_le 0)
    · exact lineStart_lineOf_of_mem h

/-- an LF ends a break, whether a CR stands before it or not -/
theorem succ_mem_breakEnds (h : t.charAt o = '\n') : o + 1 ∈ t.breakEnds := by
  have ho : o < t.length := lt_length_of_charAt (by rw [h]; decide)
  have htake : t.take (o + 1) = t.take o ++ ['\n'] := by
    rw [List.take_succ_eq_append_getElem ho, ← charAt_eq_getElem t ho, h]
  have hjoins : ¬ Joins (t.take (o + 1)) (t.drop (o + 1)) := by
    rintro ⟨hcr, -⟩
    rw [htake, List.getLast?_concat] at hcr
    cases hcr
  have hlast : o + 1 ∈ breakEnds (t.take (o + 1)) := by
    have hend := IsLine.getLast?_breakEnds (t.take o)
    rw [List.length_take, min_eq_left ho.le, ← htake] at hend
    exact List.mem_of_getLast? hend
  rw [← t.take_append_drop (o + 1), breakEnds_append _ _ hjoins]
  exact List.mem_append_left _ hlast

theorem mem_breakEnds_of_startsLine (ho : 0 < o) (h : t.startsLine o = true) : o ∈ t.breakEnds := by
  obtain ⟨o, rfl⟩ := Nat.exists_eq_succ_of_ne_zero ho.ne'
  exact succ_mem_breakEnds (by simpa [startsLine] using h)

/-- behind the start of the text, the scans see a line start where there is an LF before it -/
theorem startsLine_eq (ho : 0 < o) : t.startsLine o = (t.charAt (o - 1) == '\n') := by
  obtain ⟨o, rfl⟩ := Nat.exists_eq_succ_of_ne_zero ho.ne'
  rfl

end CodeEditor.Text
