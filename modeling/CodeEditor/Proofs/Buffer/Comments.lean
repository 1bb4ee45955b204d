import CodeEditor.Comment
import CodeEditor.Proofs.Buffer.LineByLine
/-!
Comments put in by one toggle are taken out by the next one.

A toggle that comments puts the mark and a space into every line that is not blank, at one column. The next toggle
looks at the same lines (`commentRange_of_extends`); each of them now has its indentation end at that column, with the
mark and the space behind it, whatever it had before (`commentLine?_of_extends`). So it uncomments, and takes out of
each line what was put in.
-/

namespace CodeEditor

section

variable {t : Text} {mark : Text} {line : Nat}

theorem commentLine?_eq (mark : Text) (h : line < t.lineCount) :
    commentLine? t mark line = if (t.lineText line).content.isEmpty then none else some {
      line
      indent := (t.lineText line).indentation.length
      commented := mark.isPrefixOf (t.lineText line).content
      spaced := (mark ++ [' ']).isPrefixOf (t.lineText line).content } := by
  rw [commentLine?, Text.lineText, if_pos h]

theorem line_of_commentLine? {l : CommentLine} (h : commentLine? t mark line = some l) : l.line = line := by
  simp only [commentLine?] at h
  split_ifs at h
  cases h
  rfl

/-- a line that counts has its indentation and something behind it -/
theorem indent_of_commentLine? (hline : line < t.lineCount) {l : CommentLine} (h : commentLine? t mark line = some l) :
    l.indent = (t.lineIndent line).length := by
  rw [commentLine?_eq mark hline] at h
  split_ifs at h
  cases h
  rw [Text.lineIndent_eq hline]

end

namespace Buffer

variable {b c : Buffer} {mark : Text} {column : Nat}

/-- the lines that a toggle changes -/
def commentLines (b : Buffer) (mark : Text) : List CommentLine :=
  b.commentRange.filterMap (commentLine? b.text mark)

/-- a toggle that comments puts the mark and a space into every line that counts, at the smallest indentation -/
theorem toggleComments_eq_commented {n : Nat} (h : b.toggleComments mark = (.commented n, c)) :
    mark ≠ [] ∧ n = (b.commentLines mark).length ∧ ∃ column,
    ((b.commentLines mark).map CommentLine.indent).min? = some column ∧
      c = ((b.commentLines mark).map CommentLine.line).foldl (fun b line => b.commentLine column mark line) b := by
  have hmark : mark ≠ [] := by
    rintro rfl
    cases h
  rw [toggleComments, if_neg (by rwa [List.isEmpty_iff])] at h
  simp only [← commentLines.eq_1] at h
  cases hcolumn : ((b.commentLines mark).map CommentLine.indent).min? with
  | none =>
    rw [hcolumn] at h
    cases h
  | some column =>
    rw [hcolumn] at h
    cases hall : (b.commentLines mark).all CommentLine.commented with
    | true =>
      rw [hall] at h
      cases h
    | false =>
      rw [hall] at h
      cases h
      exact ⟨hmark, rfl, column, rfl, rfl⟩

/-- where every line that counts has the mark and a space, a toggle takes both away -/
theorem toggleComments_of_spaced (hmark : mark ≠ [])
    (hcolumn : ((b.commentLines mark).map CommentLine.indent).min? = some column)
    (hcommented : ∀ l ∈ b.commentLines mark, l.commented = true)
    (hspaced : ∀ l ∈ b.commentLines mark, l.spaced = true) :
    b.toggleComments mark = (.uncommented (b.commentLines mark).length,
      ((b.commentLines mark).map CommentLine.line).foldl
        (fun b line => b.uncommentLine column (mark.length + 1) line) b) := by
  have hempty : mark.isEmpty = false := List.isEmpty_eq_false_iff.2 hmark
  have hall : (b.commentLines mark).all CommentLine.commented = true := List.all_eq_true.2 hcommented
  have hall' : (b.commentLines mark).all CommentLine.spaced = true := List.all_eq_true.2 hspaced
  simp only [toggleComments, ← commentLines.eq_1, hempty, hcolumn, hall, hall', Bool.false_eq_true, if_false, if_true]

theorem lt_lineCount_of_commentRange {line : Nat} (h : line ∈ b.commentRange) : line < b.text.lineCount := by
  have hlast := b.text.lineOf_lt b.selectionEnd
  simp only [commentRange, List.mem_range'_1] at h
  split_ifs at h <;> omega

theorem mem_commentLines {l : CommentLine} (h : l ∈ b.commentLines mark) :
    l.line ∈ b.commentRange ∧ commentLine? b.text mark l.line = some l := by
  obtain ⟨line, hline, hl⟩ := List.mem_filterMap.1 h
  obtain rfl := line_of_commentLine? hl
  exact ⟨hline, hl⟩

theorem commentLines_pairwise (b : Buffer) (mark : Text) :
    ((b.commentLines mark).map CommentLine.line).Pairwise (· < ·) := by
  have hrange : b.commentRange.Pairwise (· < ·) := List.pairwise_lt_range'
  refine List.pairwise_map.2 (hrange.filterMap _ fun i j hij l hl l' hl' => ?_)
  rwa [line_of_commentLine? hl, line_of_commentLine? hl']

/-- the smallest indentation is within that of every line that counts -/
theorem inIndent_of_commentLines (hcolumn : ((b.commentLines mark).map CommentLine.indent).min? = some column)
    {line : Nat} (h : line ∈ (b.commentLines mark).map CommentLine.line) : b.text.InIndent column line := by
  obtain ⟨l, hl, rfl⟩ := List.mem_map.1 h
  obtain ⟨hrange, hsome⟩ := mem_commentLines hl
  have hlt := lt_lineCount_of_commentRange hrange
  refine ⟨hlt, ?_⟩
  rw [← indent_of_commentLine? hlt hsome]
  exact (List.min?_eq_some_iff.1 hcolumn).2 _ (List.mem_map_of_mem hl)

/-! ## After a toggle -/

section

variable {push : Nat → Nat}
  (hc : b.text.Extends c.text column (mark ++ [' ']) ((b.commentLines mark).map CommentLine.line) push)
  (hmarks : c.marks = b.marks.map push)

include hc in
/-- a selection that ends at the start of a line, behind the first one, leaves that line out, so
nothing is put into it -/
theorem endsAtStart_of_extends :
    (b.text.lineOf b.selectionStart != b.text.lineOf b.selectionEnd && c.text.startsLine (push b.selectionEnd)) =
      (b.text.lineOf b.selectionStart != b.text.lineOf b.selectionEnd && b.text.startsLine b.selectionEnd) := by
  cases hne : b.text.lineOf b.selectionStart != b.text.lineOf b.selectionEnd with
  | false => rfl
  | true =>
    rw [Bool.true_and, Bool.true_and]
    cases hstarts : b.text.startsLine b.selectionEnd with
    | true =>
      have hnot : b.text.lineOf b.selectionEnd ∉ (b.commentLines mark).map CommentLine.line := by
        intro hmem
        obtain ⟨l, hl, hline⟩ := List.mem_map.1 hmem
        have hrange := (mem_commentLines hl).1
        simp only [commentRange, hne, hstarts, Bool.and_self, if_true, hline, List.mem_range'_1] at hrange
        have hlines : b.text.lineOf b.selectionStart ≠ b.text.lineOf b.selectionEnd := by simpa using hne
        omega
      rw [hc.startsLine _ hnot, hstarts]
    | false =>
      by_contra hyes
      rw [hc.startsLine_of _ (by simpa using hyes)] at hstarts
      cases hstarts

include hc hmarks in
/-- **The next toggle looks at the same lines**, also where the selection ends at the start of a line. -/
theorem commentRange_of_extends : c.commentRange = b.commentRange := by
  have hstart := selectionStart_of_push hmarks hc.strictMono.monotone
  have hend := selectionEnd_of_push hmarks hc.strictMono.monotone
  simp only [commentRange, hstart, hend, hc.lineOf, endsAtStart_of_extends hc]

variable (hmark : mark ≠ []) (hfirst : ∀ d, mark.head? = some d → isBlank d = false)

include hmark hfirst in
theorem content_mark_append (z : Text) : (mark ++ ' ' :: z).content = mark ++ ' ' :: z := by
  obtain ⟨d, rest, rfl⟩ := List.exists_cons_of_ne_nil hmark
  have hd : isBlank d = false := hfirst d rfl
  exact List.dropWhile_cons_of_neg (by rw [hd]; decide)

include hmark hfirst in
theorem indentation_mark_append (z : Text) : (mark ++ ' ' :: z).indentation = [] := by
  obtain ⟨d, rest, rfl⟩ := List.exists_cons_of_ne_nil hmark
  have hd : isBlank d = false := hfirst d rfl
  exact List.takeWhile_cons_of_neg (by rw [hd]; decide)

include hc hmark hfirst in
/-- **Each line that counts now has the mark and the space** behind an indentation that ends at the column. -/
theorem commentLine?_of_extends (hcolumn : ((b.commentLines mark).map CommentLine.indent).min? = some column)
    {line : Nat} (h : line ∈ b.commentRange) :
    commentLine? c.text mark line = (commentLine? b.text mark line).map fun l => ⟨l.line, column, true, true⟩ := by
  have hlt := lt_lineCount_of_commentRange h
  have hlt' : line < c.text.lineCount := by rw [hc.lineCount]; exact hlt
  cases hsome : commentLine? b.text mark line with
  | none =>
    have hnot : line ∉ (b.commentLines mark).map CommentLine.line := by
      intro hmem
      obtain ⟨l, hl, rfl⟩ := List.mem_map.1 hmem
      rw [(mem_commentLines hl).2] at hsome
      cases hsome
    rw [commentLine?_eq mark hlt', hc.lineText line hlt, if_neg hnot, ← commentLine?_eq mark hlt, hsome]
    rfl
  | some l =>
    obtain rfl := line_of_commentLine? hsome
    have hmem : l.line ∈ (b.commentLines mark).map CommentLine.line :=
      List.mem_map_of_mem (List.mem_filterMap.2 ⟨l.line, h, hsome⟩)
    have hindent := inIndent_of_commentLines hcolumn hmem
    set row := b.text.lineText l.line with hrow
    have hle : column ≤ row.indentation.length := by
      rw [hrow, ← Text.lineIndent_eq hlt]
      exact hindent.le_indent
    have hcut : row.take column = row.indentation.take column := by
      conv_lhs => rw [← row.indentation_append_content, List.take_append_of_le_length hle]
    have hblank : Text.allBlank (row.take column) = true := by
      rw [hcut]
      exact Text.allBlank_of_subset (List.take_subset _ _) row.allBlank_indentation
    have hlen : (row.take column).length = column := by
      rw [hcut, List.length_take, min_eq_left hle]
    have htext : c.text.lineText l.line = row.take column ++ (mark ++ ' ' :: row.drop column) := by
      rw [hc.lineText l.line hlt, if_pos hmem, ← hrow, List.append_assoc, List.append_assoc]
      rfl
    have hcontent : (c.text.lineText l.line).content = mark ++ ' ' :: row.drop column := by
      rw [htext, Text.content_append hblank, content_mark_append hmark hfirst]
    have hindentation : (c.text.lineText l.line).indentation.length = column := by
      rw [htext, Text.indentation_append hblank, indentation_mark_append hmark hfirst, List.append_nil, hlen]
    have hcommented : mark.isPrefixOf (mark ++ ' ' :: row.drop column) = true :=
      List.isPrefixOf_iff_prefix.2 (List.prefix_append _ _)
    have hspaced : (mark ++ [' ']).isPrefixOf (mark ++ ' ' :: row.drop column) = true :=
      List.isPrefixOf_iff_prefix.2 ⟨row.drop column, by simp⟩
    rw [commentLine?_eq mark hlt', hcontent, hindentation, hcommented, hspaced, if_neg (by simp)]
    rfl

include hc hmarks hmark hfirst in
theorem commentLines_of_extends (hcolumn : ((b.commentLines mark).map CommentLine.indent).min? = some column) :
    c.commentLines mark = (b.commentLines mark).map fun l => ⟨l.line, column, true, true⟩ := by
  rw [commentLines, commentRange_of_extends hc hmarks, commentLines, List.map_filterMap]
  exact List.filterMap_congr fun line hline => commentLine?_of_extends hc hmark hfirst hcolumn hline

end

/-- uncommenting a line takes out of it the mark and the space that were put in -/
theorem takesOut_uncommentLine (hmark : mark ≠ []) (hfirst : ∀ d, mark.head? = some d → isBlank d = false)
    (hbreak : ∀ d ∈ mark ++ [' '], isBreak d = false) :
    TakesOut column (mark ++ [' ']) fun b line => b.uncommentLine column (mark.length + 1) line := by
  intro b m line hline hb
  have htext : b.text = m.text.putIn column (mark ++ [' ']) line := congrArg Moment.text hb
  have hstart : b.text.lineStart line = m.text.lineStart line := by
    rw [htext, hline.lineStart_putIn_of_le hbreak le_rfl]
  have htake : (m.text.take (m.text.lineStart line + column)).length = m.text.lineStart line + column := by
    rw [List.length_take, min_eq_left hline.indented.le_length]
  -- the mark stands at the column, and it starts with ink
  have hdrop : (b.text.drop (m.text.lineStart line + column)).takeWhile isBlank = [] := by
    obtain ⟨d, rest, rfl⟩ := List.exists_cons_of_ne_nil hmark
    have hd : isBlank d = false := hfirst d rfl
    rw [htext, Text.putIn, List.append_assoc, List.drop_append_of_le_length htake.ge, List.drop_of_length_le htake.le]
    exact List.takeWhile_cons_of_neg (by rw [hd]; decide)
  have hlen : (mark ++ [' ']).length = mark.length + 1 := List.length_append
  simp only [uncommentLine, hstart, hdrop, List.length_nil, Nat.add_zero, ← hlen]
  exact erase_moment hline.indented.le_length hb

/-- **Commenting is undone by toggling again.** If a toggle comments `n` lines, some of which may have been commented
before, the next one uncomments as many and brings back the text and both marks. The mark is to start with neither a
space nor a tab, and to hold no line break. -/
theorem toggling_again_uncomments {b b' : Buffer} {mark : Text} {n : Nat}
    (hfirst : ∀ c, mark.head? = some c → isBlank c = false) (hbreak : ∀ c ∈ mark, isBreak c = false)
    (h : b.toggleComments mark = (.commented n, b')) :
    ∃ b'', b'.toggleComments mark = (.uncommented n, b'') ∧ b''.text = b.text ∧ b''.marks = b.marks := by
  obtain ⟨hmark, rfl, column, hcolumn, rfl⟩ := toggleComments_eq_commented h
  have hunbroken : ∀ c ∈ mark ++ [' '], isBreak c = false := by
    intro c hc
    rcases List.mem_append.1 hc with hc | hc
    · exact hbreak c hc
    · rw [List.mem_singleton.1 hc]
      rfl
  set lines := (b.commentLines mark).map CommentLine.line with hlines
  have hsorted : lines.Pairwise (· < ·) := b.commentLines_pairwise mark
  have hindent : ∀ line ∈ lines, b.text.InIndent column line := fun _ => inIndent_of_commentLines hcolumn
  -- what the first toggle puts in
  set c := lines.foldl (fun b line => b.commentLine column mark line) b
  have hmoment : c.moment = b.moment.putInAll column (mark ++ [' ']) lines :=
    foldl_insert_moment hunbroken (hsorted.imp Nat.ne_of_lt) b hindent
  obtain ⟨push, hextends, hmarks⟩ := Moment.extends_putInAll hunbroken (hsorted.imp Nat.ne_of_lt) b.moment hindent
  rw [← hmoment] at hextends hmarks
  -- what the second one sees, and takes out
  have hagain : c.commentLines mark = (b.commentLines mark).map fun l => ⟨l.line, column, true, true⟩ :=
    commentLines_of_extends hextends hmarks hmark hfirst hcolumn
  have hcolumn' : ((c.commentLines mark).map CommentLine.indent).min? = some column := by
    have hne : b.commentLines mark ≠ [] := by
      intro hnil
      rw [hnil] at hcolumn
      cases hcolumn
    obtain ⟨l, ls, hcons⟩ := List.exists_cons_of_ne_nil hne
    refine List.min?_eq_some_iff.2 ⟨?_, ?_⟩
    · rw [hagain, hcons]
      exact List.mem_cons_self
    · intro i hi
      rw [hagain, List.map_map] at hi
      obtain ⟨l, -, rfl⟩ := List.mem_map.1 hi
      exact le_rfl
  have hall : ∀ l ∈ c.commentLines mark, l.commented = true ∧ l.spaced = true := by
    intro l hl
    rw [hagain] at hl
    obtain ⟨l, -, rfl⟩ := List.mem_map.1 hl
    exact ⟨rfl, rfl⟩
  have hnumbers : (c.commentLines mark).map CommentLine.line = lines := by
    rw [hagain, List.map_map, hlines]
    rfl
  have hlength : (c.commentLines mark).length = (b.commentLines mark).length := by rw [hagain, List.length_map]
  have hrestored := (takesOut_uncommentLine hmark hfirst hunbroken).foldl_moment hunbroken hsorted hindent c hmoment
  rw [toggleComments_of_spaced hmark hcolumn' (fun l hl => (hall l hl).1) fun l hl => (hall l hl).2, hnumbers, hlength]
  exact ⟨_, rfl, congrArg Moment.text hrestored, congrArg Moment.marks hrestored⟩

/-- a line deeper than the others, a blank one and one that is commented already, selected up to the start
of the line behind them -/
theorem toggling_again_uncomments_three_lines :
    let b : Buffer := (ofText "  a\n    b\n\n  // c\nd".toList).select 0 18
    let mark : Text := "//".toList
    ((∀ c, mark.head? = some c → isBlank c = false) ∧ (∀ c ∈ mark, isBreak c = false) ∧
      (b.toggleComments mark).1 = .commented 3 ∧
      (b.toggleComments mark).2.text = "  // a\n  //   b\n\n  // // c\nd".toList) ∧
      ∃ b'', (b.toggleComments mark).2.toggleComments mark = (.uncommented 3, b'') ∧ b''.text = b.text ∧
      b''.marks = b.marks := by
  intro b mark
  have hslash : ∀ c ∈ mark, c = '/' := by simp [mark]
  have hfirst : ∀ c, mark.head? = some c → isBlank c = false := by
    intro c hc
    rw [hslash c (List.mem_of_head? hc)]
    rfl
  have hbreak : ∀ c ∈ mark, isBreak c = false := by
    intro c hc
    rw [hslash c hc]
    rfl
  have hcommented : (b.toggleComments mark).1 = .commented 3 := by decide
  have htext : (b.toggleComments mark).2.text = "  // a\n  //   b\n\n  // // c\nd".toList := by decide
  have hsame : b.toggleComments mark = (.commented 3, (b.toggleComments mark).2) := by rw [← hcommented]
  exact ⟨⟨hfirst, hbreak, hcommented, htext⟩, toggling_again_uncomments hfirst hbreak hsame⟩

end Buffer

end CodeEditor
