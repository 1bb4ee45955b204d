import CodeEditor.Proofs.Text.Outdent
import CodeEditor.Proofs.Text.Pieces
/-!
The rows of a text: what stands on its lines.

Where no CR meets an LF, two texts put together have the rows of both, the last one of the first and the first one of
the second made one (`rows_append`). So other blanks at the start of a line that has more than blanks change that row
and no other, whatever the breaks around it are (`rows_setIndent`): the blanks cannot bring a CR and an LF together,
because what stands behind them is not the end of the line.
-/

namespace CodeEditor.Text

/-- the texts of all lines, in order -/
def rows (t : Text) : List Text :=
  (List.range t.lineCount).map t.lineText

@[simp] theorem length_rows (t : Text) : t.rows.length = t.lineCount := by
  simp [rows]

theorem getElem_rows (t : Text) {k : Nat} (h : k < t.rows.length) : t.rows[k] = t.lineText k := by
  simp [rows]

theorem getElem?_rows (t : Text) {k : Nat} (h : k < t.lineCount) : t.rows[k]? = some (t.lineText k) := by
  rw [List.getElem?_eq_getElem (by simpa using h), getElem_rows]

/-- a text whose rows are known -/
theorem lineText_of_rows {t : Text} {k : Nat} {row : Text} (h : t.rows[k]? = some row) : t.lineText k = row := by
  obtain ⟨hlt, hrow⟩ := List.getElem?_eq_some_iff.1 h
  rw [← hrow, getElem_rows]

theorem lineCount_pos (t : Text) : 0 < t.lineCount :=
  Nat.succ_pos _

theorem rows_eq_concat (t : Text) :
    t.rows = (List.range t.breakEnds.length).map t.lineText ++ [t.lineText t.breakEnds.length] := by
  rw [rows, lineCount, List.range_succ, List.map_append, List.map_singleton]

theorem rows_eq_cons (t : Text) :
    t.rows = t.lineText 0 :: (List.range t.breakEnds.length).map fun line => t.lineText (line + 1) := by
  rw [rows, lineCount, List.range_succ_eq_map, List.map_cons, List.map_map]
  rfl

/-! ## One row -/

theorem lineStart_le_lineEnd {t : Text} {line : Nat} (h : line < t.lineCount) : t.lineStart line ≤ t.lineEnd line := by
  by_cases hlast : line < t.breakEnds.length
  · rw [lineEnd_of_lt hlast]
    cases line with
    | zero => rw [lineStart_zero]; exact Nat.zero_le _
    | succ k =>
      have hlt := List.pairwise_iff_getElem.1 t.breakEnds_pairwise k (k + 1) (by omega) hlast (Nat.lt_succ_self k)
      rw [lineStart_succ (by omega)]
      omega
  · obtain rfl : line = t.breakEnds.length := by rw [lineCount] at h; omega
    rw [lineEnd_last]
    exact t.lineStart_le_length _

theorem lineEnd_le_length (t : Text) (line : Nat) : t.lineEnd line ≤ t.length := by
  unfold lineEnd
  split
  · rename_i e he
    have hle := (isBreakEnd_of_mem (List.mem_of_getElem? he)).le
    omega
  · exact le_rfl

theorem length_lineText {t : Text} {line : Nat} (h : line < t.lineCount) :
    t.lineStart line + (t.lineText line).length = t.lineEnd line := by
  have hle := lineStart_le_lineEnd h
  rw [lineText, if_pos h, length_slice _ (t.lineEnd_le_length line)]
  omega

theorem indentation_append_content (t : Text) : t.indentation ++ t.content = t :=
  List.takeWhile_append_dropWhile

theorem lineIndent_eq {t : Text} {line : Nat} (h : line < t.lineCount) :
    t.lineIndent line = (t.lineText line).indentation := by
  rw [lineIndent, lineText, if_pos h]

theorem lineIndent_append_content {t : Text} {line : Nat} (h : line < t.lineCount) :
    t.lineIndent line ++ content (t.lineText line) = t.lineText line := by
  rw [lineIndent_eq h, indentation_append_content]

/-- the content of a row does not start with a blank -/
theorem isBlank_of_content_eq_cons {t c : Text} {d : Char} (h : t.content = d :: c) : isBlank d = false := by
  have := List.head?_dropWhile_not isBlank t
  rw [← content, h] at this
  simpa using this

theorem content_append {u : Text} (hu : u.allBlank = true) (t : Text) : content (u ++ t) = t.content :=
  List.dropWhile_append_of_pos (List.all_eq_true.1 hu)

theorem indentation_append {u : Text} (hu : u.allBlank = true) (t : Text) : indentation (u ++ t) = u ++ t.indentation :=
  List.takeWhile_append_of_pos (List.all_eq_true.1 hu)

@[simp] theorem content_content (t : Text) : t.content.content = t.content := by
  have h := content_append t.allBlank_indentation t.content
  rwa [indentation_append_content, eq_comm] at h

theorem indentation_append_of_allBlank {u : Text} (hu : u.allBlank = true) (t : Text) :
    (u ++ t.content).indentation = u := by
  have h := indentation_append_content (u ++ t.content)
  rw [content_append hu, content_content] at h
  exact List.append_cancel_right h

theorem content_eq_nil_iff {t : Text} : t.content = [] ↔ t.allBlank = true := by
  rw [content, List.dropWhile_eq_nil_iff, allBlank, List.all_eq_true]

theorem content_ne_nil_iff {t : Text} : t.content ≠ [] ↔ t.allBlank = false := by
  rw [ne_eq, content_eq_nil_iff, Bool.not_eq_true]

/-- a line of blanks ends where its blanks do -/
theorem lineIndentEnd_eq_lineEnd_iff {t : Text} {line : Nat} (h : line < t.lineCount) :
    t.lineIndentEnd line = t.lineEnd line ↔ (t.lineText line).allBlank = true := by
  have hlen := congrArg List.length (lineIndent_append_content h)
  have hend := length_lineText h
  rw [← content_eq_nil_iff, ← List.length_eq_zero_iff, lineIndentEnd]
  rw [List.length_append] at hlen
  omega

/-! ## Two texts put together -/

theorem slice_append_left {b : Text} (c : Text) (i : Nat) {j : Nat} (h : j ≤ b.length) :
    (b ++ c).slice i j = b.slice i j := by
  rw [slice, slice, ← List.drop_take, ← List.drop_take, List.take_append_of_le_length h]

theorem slice_append_right (b c : Text) (i j : Nat) : (b ++ c).slice (i + b.length) (j + b.length) = c.slice i j := by
  rw [slice, slice, Nat.add_comm i, ← List.drop_drop, List.drop_left]
  congr 1
  omega

section

variable {b c : Text} (h : ¬ Joins b c)
include h

theorem lineCount_append : (b ++ c).lineCount = b.lineCount + c.breakEnds.length := by
  rw [lineCount, lineCount, breakEnds_append b c h, List.length_append, List.length_map]
  omega

theorem lineStart_append_left {k : Nat} (hk : k < b.lineCount) : (b ++ c).lineStart k = b.lineStart k := by
  have hcount := lineCount_append h
  cases k with
  | zero => rw [lineStart_zero, lineStart_zero]
  | succ k =>
    have hb : k < b.breakEnds.length := by rw [lineCount] at hk; omega
    have hbc : k < (b ++ c).breakEnds.length := by rw [lineCount] at hcount; rw [lineCount] at hk hcount; omega
    rw [lineStart_succ hbc, lineStart_succ hb, List.getElem_of_eq (breakEnds_append b c h), List.getElem_append_left hb]

theorem lineStart_append_right {j : Nat} (hj : j < c.breakEnds.length) :
    (b ++ c).lineStart (b.lineCount + j) = c.lineStart (j + 1) + b.length := by
  have hbc : b.breakEnds.length + j < (b ++ c).breakEnds.length := by
    rw [breakEnds_append b c h, List.length_append, List.length_map]; omega
  rw [lineCount, Nat.add_right_comm, lineStart_succ hbc, lineStart_succ hj, List.getElem_of_eq (breakEnds_append b c h),
    List.getElem_append_right (Nat.le_add_right _ _)]
  simp

theorem lineEnd_append_left {k : Nat} (hk : k < b.breakEnds.length) : (b ++ c).lineEnd k = b.lineEnd k := by
  have hbc : k < (b ++ c).breakEnds.length := by
    rw [breakEnds_append b c h, List.length_append]; omega
  rw [lineEnd_of_lt hbc, lineEnd_of_lt hk, List.getElem_of_eq (breakEnds_append b c h), List.getElem_append_left hk]

theorem lineEnd_append_right {j : Nat} (hj : j < c.lineCount) :
    (b ++ c).lineEnd (b.breakEnds.length + j) = c.lineEnd j + b.length := by
  have hbreaks := breakEnds_append b c h
  have hlen : (b ++ c).breakEnds.length = b.breakEnds.length + c.breakEnds.length := by
    rw [hbreaks, List.length_append, List.length_map]
  by_cases hlast : j < c.breakEnds.length
  · have hpos := (isBreakEnd_of_mem (List.getElem_mem hlast)).pos
    rw [lineEnd_of_lt (by omega), lineEnd_of_lt hlast, List.getElem_of_eq hbreaks,
      List.getElem_append_right (Nat.le_add_right _ _)]
    simp only [Nat.add_sub_cancel_left, List.getElem_map]
    omega
  · obtain rfl : j = c.breakEnds.length := by rw [lineCount] at hj; omega
    rw [← hlen, lineEnd_last, lineEnd_last, List.length_append, Nat.add_comm]

theorem lineText_append_left {k : Nat} (hk : k < b.breakEnds.length) : (b ++ c).lineText k = b.lineText k := by
  have hcount := lineCount_append h
  have hlt : k < b.lineCount := by rw [lineCount]; omega
  have hend : b.lineEnd k ≤ b.length := lineEnd_le_length b k
  rw [lineText, lineText, if_pos (by omega), if_pos hlt, lineStart_append_left h hlt, lineEnd_append_left h hk,
    slice_append_left c _ hend]

theorem lineText_append_seam :
    (b ++ c).lineText b.breakEnds.length = b.lineText b.breakEnds.length ++ c.lineText 0 := by
  have hcount := lineCount_append h
  have hlt : b.breakEnds.length < b.lineCount := by rw [lineCount]; omega
  have hfirst := c.lineCount_pos
  have hend := lineEnd_append_right h hfirst
  have hstart := b.lineStart_le_length b.breakEnds.length
  rw [Nat.add_zero] at hend
  rw [lineText, lineText, lineText, if_pos (by omega), if_pos hlt, if_pos hfirst, lineStart_append_left h hlt, hend,
    lineEnd_last, lineStart_zero, ← slice_append (b ++ c) hstart (Nat.le_add_left b.length _),
    slice_append_left c _ le_rfl]
  congr 1
  have hright := slice_append_right b c 0 (c.lineEnd 0)
  rwa [Nat.zero_add] at hright

theorem lineText_append_right {j : Nat} (hj : j < c.breakEnds.length) :
    (b ++ c).lineText (b.lineCount + j) = c.lineText (j + 1) := by
  have hcount := lineCount_append h
  have hlt : j + 1 < c.lineCount := by rw [lineCount]; omega
  have hend := lineEnd_append_right h hlt
  rw [show b.breakEnds.length + (j + 1) = b.lineCount + j by rw [lineCount]; omega] at hend
  rw [lineText, lineText, if_pos (by omega), if_pos hlt, lineStart_append_right h hj, hend, slice_append_right]

/-- **The rows of two texts put together**: where the one ends and the other starts, two rows become one. -/
theorem rows_append {before behind : List Text} {last first : Text} (hb : b.rows = before ++ [last])
    (hc : c.rows = first :: behind) : (b ++ c).rows = before ++ (last ++ first) :: behind := by
  rw [rows_eq_concat] at hb
  rw [rows_eq_cons] at hc
  obtain ⟨rfl, hlast⟩ := List.append_inj' hb rfl
  obtain rfl := List.head_eq_of_cons_eq hlast
  obtain ⟨rfl, rfl⟩ := List.cons.inj hc
  have hbefore : (List.range b.breakEnds.length).map (b ++ c).lineText =
    (List.range b.breakEnds.length).map b.lineText :=
    List.map_congr_left fun k hk => lineText_append_left h (List.mem_range.1 hk)
  have hbehind : (List.range c.breakEnds.length).map (fun j => (b ++ c).lineText (b.lineCount + j)) =
      (List.range c.breakEnds.length).map fun j => c.lineText (j + 1) :=
    List.map_congr_left fun j hj => lineText_append_right h (List.mem_range.1 hj)
  rw [rows, lineCount_append h, List.range_add, List.map_append, List.map_map, ← hbehind, ← hbefore,
    ← lineText_append_seam h, lineCount, List.range_succ, List.map_append, List.map_singleton, List.append_assoc,
    List.singleton_append]
  rfl

end

/-- a text without breaks is one row -/
theorem rows_of_breakEnds {u : Text} (h : u.breakEnds = []) : u.rows = [u] := by
  have hlast := u.lineEnd_last
  rw [h] at hlast
  simp [rows, lineText, lineCount, h, lineStart_zero, slice, show u.lineEnd 0 = u.length from hlast]

theorem not_joins_of_unbroken {u : Text} (hu : ∀ c ∈ u, isBreak c = false) (z : Text) : ¬ Joins u z := by
  rintro ⟨hcr, -⟩
  have hbreak := hu '\r' (List.mem_of_getLast? hcr)
  cases hbreak

/-- a text without breaks goes in front of the first row of what is behind it -/
theorem rows_unbroken_append {u z first : Text} {behind : List Text} (hu : ∀ c ∈ u, isBreak c = false)
    (hz : z.rows = first :: behind) : rows (u ++ z) = (u ++ first) :: behind := by
  have hrow : u.rows = [] ++ [u] := rows_of_breakEnds (IsLine.breakEnds_line hu)
  rw [rows_append (not_joins_of_unbroken hu z) hrow hz, List.nil_append]

theorem unbroken_of_allBlank {u : Text} (h : u.allBlank = true) : ∀ c ∈ u, isBreak c = false :=
  fun c hc => isBreak_of_isBlank (List.all_eq_true.1 h c hc)

/-- blanks before a text go in front of its first row -/
theorem rows_allBlank_append {w c first : Text} {behind : List Text} (hw : w.allBlank = true)
    (hc : c.rows = first :: behind) :
    rows (w ++ c) = (w ++ first) :: behind :=
  rows_unbroken_append (unbroken_of_allBlank hw) hc

/-- a text without breaks, and the break behind it, are a row of their own -/
theorem rows_break_append {u : Text} (hu : ∀ d ∈ u, isBreak d = false) {c : Char} (hc : isBreak c = true)
    (hcr : c ≠ '\r') (z : Text) :
    rows (u ++ c :: z) = u :: z.rows := by
  have hjoins : ¬ Joins [c] z := fun h => hcr (Option.some.inj h.1)
  have hends : breakEnds [c] = [1] := by
    rw [breakEnds, breakEndsFrom_cons 0 c [] fun h => hcr h.1, if_pos hc]
    rfl
  have hempty : rows [c] = [[]] ++ [[]] := by
    simp [rows_eq_cons, lineText, lineCount, lineStart, lineEnd, clampLine, hends, slice]
  have hbreak : rows (c :: z) = [] :: z.rows := by
    rw [z.rows_eq_cons]
    exact rows_append hjoins hempty z.rows_eq_cons
  rw [rows_unbroken_append hu hbreak, List.append_nil]

theorem rows_line_append {u : Text} (hu : ∀ c ∈ u, isBreak c = false) (z : Text) :
    rows (u ++ '\n' :: z) = u :: z.rows :=
  rows_break_append hu rfl (by decide) z

/-- **Rows put on lines** are the rows of the text. -/
theorem rows_intercalate {rows : List Text} (hne : rows ≠ []) (h : ∀ row ∈ rows, ∀ c ∈ row, isBreak c = false) :
    Text.rows (['\n'].intercalate rows) = rows := by
  induction rows with
  | nil => exact absurd rfl hne
  | cons row rows ih =>
    have hrow := h row List.mem_cons_self
    cases rows with
    | nil =>
      rw [List.intercalate_singleton, rows_of_breakEnds (IsLine.breakEnds_line hrow)]
    | cons next rows =>
      have hrest := ih (List.cons_ne_nil _ _) fun row' hrow' => h row' (List.mem_cons_of_mem row hrow')
      rw [List.intercalate_cons_cons, List.append_assoc, List.singleton_append, rows_line_append hrow, hrest]

/-! ## Other blanks at the start of a line -/

/-- the text with `u` for the blanks at the start of a line -/
def setIndent (t : Text) (line : Nat) (u : Text) : Text :=
  t.take (t.lineStart line) ++ u ++ t.drop (t.lineIndentEnd line)

/-- the text before a line ends in an empty row -/
theorem rows_take_lineStart (t : Text) {line : Nat} (h : line < t.lineCount) :
    ∃ before, before.length = line ∧ rows (t.take (t.lineStart line)) = before ++ [[]] := by
  set a : Text := t.take (t.lineStart line) with ha
  have hlen : a.length = t.lineStart line := t.length_take_lineStart line
  have hbreaks : a.breakEnds.length = line := (t.breakEnds_cut h).2
  have hjoins : ¬ Joins a [] := fun hj => by cases hj.2
  have hstart : a.lineStart line = t.lineStart line := (lineStart_of_append h (List.append_nil _) hjoins).1
  refine ⟨(List.range line).map a.lineText, by simp, ?_⟩
  have hlast : a.lineText line = [] := by
    have hend := a.lineEnd_last
    rw [hbreaks, hlen, ← hstart] at hend
    rw [lineText, hend]
    simp [slice]
  rw [rows, lineCount, hbreaks, List.range_succ, List.map_append, List.map_singleton, hlast]

/-- where a text starts with an LF, its first row is empty -/
theorem head?_ne_lf {c first : Text} {behind : List Text} (h : c.rows = first :: behind) (hne : first ≠ []) :
    c.head? ≠ some '\n' := by
  intro hlf
  obtain ⟨rest, rfl⟩ := List.head?_eq_some_iff.1 hlf
  have hbreaks := breakEnds_lf_cons rest
  have hend : lineEnd ('\n' :: rest) 0 = 0 := by
    rw [lineEnd_of_lt (by rw [hbreaks]; simp), List.getElem_of_eq hbreaks]
    rfl
  have hfirst : lineText ('\n' :: rest) 0 = first := lineText_of_rows (by rw [h]; rfl)
  rw [lineText, hend, lineStart_zero] at hfirst
  exact hne (by simpa [slice] using hfirst.symm)

/-- blanks between a text that ends in an empty row and another text go in front of the first row of that -/
theorem rows_blanks_between {a c w first : Text} {before behind : List Text} (ha : a.rows = before ++ [[]])
    (hc : c.rows = first :: behind) (hw : w.allBlank = true) (h : ¬ Joins a (w ++ c)) :
    rows (a ++ (w ++ c)) = before ++ (w ++ first) :: behind := by
  rw [rows_append h ha (rows_allBlank_append hw hc), List.nil_append]

/-- **The rows around the blanks of a line**: those before the line, what is left of its row behind the blanks,
and the rows behind it -/
theorem Indented.rows_cut {t : Text} {width line : Nat} (h : t.Indented width line) :
    let blanks := t.slice (t.lineStart line) (t.lineStart line + width)
    ∃ before first behind, before.length = line ∧ rows (t.take (t.lineStart line)) = before ++ [[]] ∧
      rows (t.drop (t.lineStart line + width)) = first :: behind ∧ t.lineText line = blanks ++ first ∧
      t.rows = before ++ (blanks ++ first) :: behind := by
  intro blanks
  obtain ⟨before, hlen, hbefore⟩ := t.rows_take_lineStart h.line_lt
  obtain ⟨first, behind, hfirst⟩ : ∃ first behind, rows (t.drop (t.lineStart line + width)) = first :: behind :=
    ⟨_, _, rows_eq_cons _⟩
  have hbehind : t.drop (t.lineStart line) = blanks ++ t.drop (t.lineStart line + width) := t.drop_eq_slice_append _ _
  have hjoins := t.not_joins_lineStart h.line_lt
  rw [hbehind] at hjoins
  have hrows := rows_blanks_between hbefore hfirst h.blank hjoins
  rw [← hbehind, List.take_append_drop] at hrows
  have htext : t.lineText line = blanks ++ first := lineText_of_rows (by
    rw [hrows, List.getElem?_append_right hlen.le, hlen, Nat.sub_self]
    rfl)
  exact ⟨before, first, behind, hlen, hbefore, hfirst, htext, hrows⟩

/-- **Other blanks** at the start of a line that has more than blanks change its row, and no other. -/
theorem rows_setIndent {t : Text} {line : Nat} (hline : line < t.lineCount) (hink : (t.lineText line).allBlank = false)
    {u : Text} (hu : u.allBlank = true) :
    (t.setIndent line u).rows = t.rows.set line (u ++ content (t.lineText line)) := by
  have hblank : (t.lineIndent line).allBlank = true := allBlank_indentation _
  have hslice : t.slice (t.lineStart line) (t.lineStart line + (t.lineIndent line).length) = t.lineIndent line :=
    t.slice_lineIndent line
  obtain ⟨before, first, behind, hlen, hbefore, hfirst, htext, hrows⟩ := (indented_of_le hline le_rfl).rows_cut
  rw [hslice] at htext hrows
  have hcontent : content (t.lineText line) = first :=
    List.append_cancel_left ((lineIndent_append_content hline).trans htext)
  have hne : first ≠ [] := by
    rintro rfl
    rw [htext, List.append_nil, hblank] at hink
    cases hink
  -- what stands behind the blanks is not the LF of the break before them
  have hnew : ¬ Joins (t.take (t.lineStart line)) (u ++ t.drop (t.lineStart line + (t.lineIndent line).length)) := by
    rintro ⟨-, hlf⟩
    cases u with
    | nil => exact head?_ne_lf hfirst hne hlf
    | cons d u =>
      obtain rfl : d = '\n' := by simpa using hlf
      cases hu
  rw [setIndent, lineIndentEnd, List.append_assoc, rows_blanks_between hbefore hfirst hu hnew, hrows, hcontent, ← hlen]
  simp

section

variable {t : Text} {line : Nat} (hline : line < t.lineCount) (hink : (t.lineText line).allBlank = false) {u : Text}
  (hu : u.allBlank = true)
include hline hink hu

theorem lineCount_setIndent : (t.setIndent line u).lineCount = t.lineCount := by
  rw [← length_rows, rows_setIndent hline hink hu, List.length_set, length_rows]

theorem lineText_setIndent {k : Nat} (hk : k < t.lineCount) :
    (t.setIndent line u).lineText k = if k = line then u ++ content (t.lineText line) else t.lineText k := by
  refine lineText_of_rows ?_
  rw [rows_setIndent hline hink hu, List.getElem?_set, getElem?_rows t hk, length_rows, if_pos hline]
  simp only [eq_comm (a := line)]
  split_ifs <;> rfl

end

end CodeEditor.Text
