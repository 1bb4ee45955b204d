import CodeEditor.Proofs.Indent.Reindent
/-!
Reindenting reads contents.

Without comments and strings the nesting behind a line depends on the nesting before it and on the content of the line,
not on its blanks (`behind_congr`). There is one exception. A single quote is escaped by a backslash before it, unless
another one stands before that; looking back from the second character of a text, the reader meets the first one twice.
So a text that starts with a backslash and a quote (`OpensEscaped`) opens a quotation there, and the same content behind
blanks does not. Two texts with the same contents that agree in this have the same levels (`SameReading.levelAt?`).
-/

namespace CodeEditor

open Text

variable {t u : Text} {line : Nat}

namespace Text

/-! ## Contents -/

theorem content_eq_slice (h : line < t.lineCount) :
    content (t.lineText line) = t.slice (t.lineIndentEnd line) (t.lineEnd line) := by
  have hrow : t.slice (t.lineStart line) (t.lineEnd line) = t.lineText line := by rw [lineText, if_pos h]
  have hdrop := drop_slice t (Nat.le_add_right (t.lineStart line) (t.lineIndent line).length) (t.lineEnd line)
  rw [Nat.add_sub_cancel_left, hrow, ← lineIndent_append_content h, List.drop_left] at hdrop
  exact hdrop

theorem length_content (h : line < t.lineCount) :
    (content (t.lineText line)).length = t.lineEnd line - t.lineIndentEnd line := by
  rw [content_eq_slice h, length_slice _ (t.lineEnd_le_length line)]

theorem charAt_content (h : line < t.lineCount) {i : Nat} (hi : i < (content (t.lineText line)).length) :
    t.charAt (t.lineIndentEnd line + i) = (content (t.lineText line)).charAt i := by
  rw [length_content h] at hi
  rw [content_eq_slice h, charAt, charAt, slice, List.getD_eq_getElem?_getD, List.getD_eq_getElem?_getD,
    List.getElem?_take, if_pos hi, List.getElem?_drop]

/-- before a content stands a blank or a break -/
theorem charAt_before_content (h : line < t.lineCount) (hpos : 0 < t.lineIndentEnd line) :
    t.charAt (t.lineIndentEnd line - 1) ≠ '\\' := by
  intro hslash
  rcases Nat.eq_zero_or_pos (t.lineIndent line).length with hnone | hsome
  · -- no blanks: the line starts at the end of a break
    rw [lineIndentEnd, hnone, Nat.add_zero] at hpos hslash
    cases line with
    | zero => rw [lineStart_zero] at hpos; exact absurd hpos (lt_irrefl _)
    | succ k =>
      have hk : k < t.breakEnds.length := by rw [lineCount] at h; omega
      have hbreak := (isBreakEnd_of_mem (List.getElem_mem hk)).isBreak
      rw [← lineStart_succ hk, hslash] at hbreak
      cases hbreak
  · have hwidth : 1 ≤ (t.lineIndent line).length := hsome
    have hblank := t.allBlank_slice_lineIndentEnd hwidth
    have hend : t.lineIndentEnd line - 1 < t.length := by
      have hle := length_lineText h
      have hlen := congrArg List.length (lineIndent_append_content h)
      have := t.lineEnd_le_length line
      rw [List.length_append] at hlen
      rw [lineIndentEnd] at hpos ⊢
      omega
    have hone : t.lineIndentEnd line - (t.lineIndentEnd line - 1) = 1 := by omega
    rw [slice, hone, List.take_one_drop_eq_of_lt_length hend, List.get_eq_getElem, ← charAt_eq_getElem t hend,
      hslash] at hblank
    cases hblank

/-- only the content of the first line can start the text -/
theorem line_eq_zero (h : line < t.lineCount) (hzero : t.lineIndentEnd line = 0) : line = 0 := by
  cases line with
  | zero => rfl
  | succ k =>
    have hk : k < t.breakEnds.length := by rw [lineCount] at h; omega
    have hpos := (isBreakEnd_of_mem (List.getElem_mem hk)).pos
    rw [lineIndentEnd, lineStart_succ hk] at hzero
    omega

/-! ## The first quote -/

/-- the text starts with a backslash and a quote -/
def OpensEscaped (t : Text) : Prop :=
  ['\\', '\''] <+: t

instance (t : Text) : Decidable t.OpensEscaped :=
  inferInstanceAs (Decidable (_ <+: _))

theorem lineText_zero (t : Text) : t.lineText 0 = t.take (t.lineEnd 0) := by
  rw [lineText, if_pos t.lineCount_pos, lineStart_zero]
  rfl

/-- a text starts so if its first row does -/
theorem opensEscaped_lineText_iff (t : Text) : OpensEscaped (t.lineText 0) ↔ t.OpensEscaped := by
  rw [lineText_zero, OpensEscaped, List.prefix_take_iff, OpensEscaped]
  refine ⟨And.left, fun h => ⟨h, ?_⟩⟩
  -- neither of the two characters is a break
  by_contra hshort
  obtain ⟨rest, rfl⟩ := h
  have hlt : lineEnd (['\\', '\''] ++ rest) 0 < 2 := not_le.1 hshort
  have hlen : 2 ≤ (['\\', '\''] ++ rest).length := by simp
  have hbreak := isBreak_lineEnd (hlt.trans_le hlen)
  have hend : lineEnd (['\\', '\''] ++ rest) 0 = 0 ∨ lineEnd (['\\', '\''] ++ rest) 0 = 1 := by omega
  rcases hend with hend | hend <;> rw [hend] at hbreak <;> cases hbreak

theorem opensEscaped_of_charAt {c : Text} (hlen : 1 < c.length) (hslash : c.charAt 0 = '\\')
    (hquote : c.charAt 1 = '\'') :
    c.OpensEscaped := by
  match c, hlen, hslash, hquote with
  | _ :: _ :: rest, _, hslash, hquote => exact ⟨rest, by rw [← hslash, ← hquote]; rfl⟩

/-- the quote at some place of a content is not escaped; `first` says that the content stands at
the start of the text -/
def togglesAt (c : Text) (first : Bool) : Nat → Bool
  | 0 => true
  | 1 => first || c.charAt 0 != '\\'
  | i + 2 => c.charAt (i + 1) != '\\' || c.charAt i == '\\'

/-- **The look back** from a quote in a line ends in its content, or at the blank or break before it. -/
theorem quoteToggles_content (h : line < t.lineCount) {i : Nat} (hi : i < (content (t.lineText line)).length)
    (hquote : (content (t.lineText line)).charAt i = '\'') :
    quoteToggles t (t.lineIndentEnd line + i) = togglesAt (content (t.lineText line))
      (t.lineIndentEnd line == 0) i := by
  have hchar : ∀ k ≤ i, t.charAt (t.lineIndentEnd line + k) = (content (t.lineText line)).charAt k :=
    fun k hk => charAt_content h (by omega)
  have hstart := Nat.eq_zero_or_pos (t.lineIndentEnd line)
  match i, hquote, hchar with
  | 0, hquote, hchar =>
    have hbefore : t.charAt (t.lineIndentEnd line + 0 - 1) ≠ '\\' := by
      rcases hstart with hzero | hpos
      · have hself : t.charAt 0 = '\'' := by rw [← hquote, ← hchar 0 le_rfl, hzero]
        rw [hzero, hself]
        decide
      · exact charAt_before_content h hpos
    rw [quoteToggles, bne_iff_ne.2 hbefore, Bool.true_or, togglesAt]
  | 1, _, hchar =>
    have hbefore : t.charAt (t.lineIndentEnd line + 1 - 1) = (content (t.lineText line)).charAt 0 :=
      hchar 0 (Nat.zero_le _)
    rcases hstart with hzero | hpos
    · have hsame : t.charAt (t.lineIndentEnd line + 1 - 2) = (content (t.lineText line)).charAt 0 := by
        rw [← hchar 0 (Nat.zero_le _), hzero]
      rw [quoteToggles, hbefore, hsame, hzero]
      simp [togglesAt, bne]
    · have hoff : t.charAt (t.lineIndentEnd line + 1 - 2) ≠ '\\' := charAt_before_content h hpos
      rw [quoteToggles, hbefore, beq_false_of_ne hoff, beq_false_of_ne hpos.ne']
      simp [togglesAt]
  | i + 2, _, hchar =>
    have hbefore := hchar (i + 1) (by omega)
    have htwo := hchar i (by omega)
    rw [quoteToggles, show t.lineIndentEnd line + (i + 2) - 1 = t.lineIndentEnd line + (i + 1) by omega, hbefore,
      show t.lineIndentEnd line + (i + 2) - 2 = t.lineIndentEnd line + i by omega, htwo, togglesAt]

end Text

/-! ## Shapes -/

theorem LineShape.isOpening_content {row : Text} (h : row.allBlank = false) :
    isOpening row = isOpening row.content := by
  have hne : (Text.content row).reverse.dropWhile (· == ' ') ≠ [] := by
    intro hall
    rw [List.dropWhile_eq_nil_iff] at hall
    cases hcontent : row.content with
    | nil => exact content_ne_nil_iff.2 h hcontent
    | cons d c =>
      have hspace := hall d (by rw [hcontent]; simp)
      rw [beq_iff_eq] at hspace
      subst hspace
      have hblank := isBlank_of_content_eq_cons hcontent
      cases hblank
  have hrow : row.reverse = (Text.content row).reverse ++ (Text.indentation row).reverse := by
    rw [← List.reverse_append, indentation_append_content]
  rw [isOpening, isOpening, dropEndWhile, dropEndWhile, hrow, List.dropWhile_append, if_neg (by simpa using hne)]
  simp [hne, List.getLast?_append]

/-- the shape of a line is that of its content -/
theorem LineShape.ofLine_content {row : Text} (h : row.allBlank = false) : ofLine row = ofLine row.content := by
  rw [ofLine, ofLine, isOpening_content h, isHeadlessIf, isHeadlessIf, isHeadlessElse, isHeadlessElse, content_content]

/-! ## Nesting -/

theorem Spans.covers_empty (offset : Nat) : Spans.empty.covers offset = false := rfl

theorem lineIndentEnd_bne_lineEnd (h : line < t.lineCount) :
    (t.lineIndentEnd line != t.lineEnd line) = !(t.lineText line).allBlank := by
  rw [Bool.eq_iff_iff, bne_iff_ne, ne_eq, lineIndentEnd_eq_lineEnd_iff h]
  simp

theorem isPlainLine_empty (h : line < t.lineCount) : isPlainLine t .empty line = !(t.lineText line).allBlank := by
  rw [isPlainLine, lineIndentEnd_bne_lineEnd h]
  simp [Spans.covers_empty]

/-- the nesting behind a line, from its content and the scan of it -/
theorem behind_empty (h : line < t.lineCount) (d : BlockDepth) :
    d.behind t .empty line =
      { ((List.range' (t.lineIndentEnd line) (content (t.lineText line)).length).foldl
          (BlockDepth.read t .empty) (d, false)).1 with
        heads := if (t.lineText line).allBlank then d.heads
          else if (LineShape.ofLine (content (t.lineText line))).isHeadless then d.heads + 1 else 0 } := by
  simp only [BlockDepth.behind, planLine, Spans.covers_empty, Bool.and_false, Bool.not_false, Bool.and_true,
    ← length_content h, lineIndentEnd_bne_lineEnd h]
  cases hrow : (t.lineText line).allBlank with
  | false =>
    rw [LineShape.ofLine_content hrow]
    rfl
  | true => rfl

theorem levelAt?_empty (h : line < t.lineCount) :
    levelAt? t .empty line =
      if (t.lineText line).allBlank then none
      else if (nestingAt t .empty line).brackets ≤ 0 ∧ (content (t.lineText line)).charAt 0 ≠ '#' then
        some ((nestingAt t .empty line).level ((content (t.lineText line)).charAt 0))
      else none := by
  rw [levelAt?, isPlainLine_empty h]
  cases hrow : (t.lineText line).allBlank with
  | true => rfl
  | false =>
    have hpos : 0 < (content (t.lineText line)).length := by
      rw [List.length_pos_iff_ne_nil, content_ne_nil_iff, hrow]
    have hfirst := charAt_content h hpos
    rw [Nat.add_zero] at hfirst
    simp [hfirst]

/-- reading depends on the characters read, and at a quote on what stands before it -/
theorem BlockDepth.read_congr {i j : Nat} (hchar : t.charAt i = u.charAt j)
    (hquote : t.charAt i = '\'' → quoteToggles t i = quoteToggles u j) (state : BlockDepth × Bool) :
    read t .empty state i = read u .empty state j := by
  simp only [read, Spans.covers_empty, ← hchar]
  by_cases h : t.charAt i = '\''
  · simp only [if_pos h, hquote h]
  · simp only [if_neg h]

theorem BlockDepth.foldl_read_congr {i j n : Nat} (hchar : ∀ k < n, t.charAt (i + k) = u.charAt (j + k))
    (hquote : ∀ k < n, t.charAt (i + k) = '\'' → quoteToggles t (i + k) = quoteToggles u (j + k))
    (state : BlockDepth × Bool) :
    (List.range' i n).foldl (read t .empty) state = (List.range' j n).foldl (read u .empty) state := by
  induction n generalizing i j state with
  | zero => rfl
  | succ n ih =>
    have hfirst := read_congr (hchar 0 n.succ_pos) (hquote 0 n.succ_pos) state
    simp only [Nat.add_zero] at hfirst
    have hnext : ∀ o k, o + 1 + k = o + (k + 1) := fun o k => by omega
    rw [List.range'_succ, List.range'_succ, List.foldl_cons, List.foldl_cons, hfirst]
    refine ih (fun k hk => ?_) (fun k hk => ?_) _
    · rw [hnext, hnext]
      exact hchar (k + 1) (by omega)
    · rw [hnext, hnext]
      exact hquote (k + 1) (by omega)

/-- the two texts have the same contents on their lines, and start in the same way -/
structure SameReading (t u : Text) : Prop where
  contents : t.rows.map content = u.rows.map content
  opens : t.OpensEscaped ↔ u.OpensEscaped

namespace SameReading

variable (h : SameReading t u)
include h

theorem symm : SameReading u t :=
  ⟨h.contents.symm, h.opens.symm⟩

theorem lineCount : t.lineCount = u.lineCount := by
  have := congrArg List.length h.contents
  simpa using this

theorem content (hline : line < t.lineCount) : content (t.lineText line) = content (u.lineText line) := by
  have hline' : line < u.lineCount := h.lineCount ▸ hline
  have hget := congrArg (·[line]?) h.contents
  simpa [getElem?_rows t hline, getElem?_rows u hline'] using hget

theorem allBlank (hline : line < t.lineCount) : (t.lineText line).allBlank = (u.lineText line).allBlank := by
  rw [Bool.eq_iff_iff, ← content_eq_nil_iff, ← content_eq_nil_iff, h.content hline]

/-- a content that starts with an escaped quote stands at the start of both texts or of none -/
theorem lineIndentEnd_eq_zero (hline : line < t.lineCount) (hopens : OpensEscaped (Text.content (t.lineText line)))
    (hzero : t.lineIndentEnd line = 0) : u.lineIndentEnd line = 0 := by
  obtain rfl := line_eq_zero hline hzero
  have hrow : Text.content (t.lineText 0) = t.lineText 0 := by
    have hnone : t.lineIndent 0 = [] := by
      rw [← List.length_eq_zero_iff]
      rw [lineIndentEnd] at hzero
      omega
    have hsplit := lineIndent_append_content hline
    rwa [hnone, List.nil_append] at hsplit
  rw [hrow, opensEscaped_lineText_iff, h.opens, ← opensEscaped_lineText_iff] at hopens
  obtain ⟨rest, hrest⟩ := hopens
  rw [lineIndentEnd, lineIndent_eq (h.lineCount ▸ hline), ← hrest, lineStart_zero]
  rfl

theorem quoteToggles (hline : line < t.lineCount) {i : Nat} (hi : i < (Text.content (t.lineText line)).length)
    (hquote : (Text.content (t.lineText line)).charAt i = '\'') :
    quoteToggles t (t.lineIndentEnd line + i) = quoteToggles u (u.lineIndentEnd line + i) := by
  have hline' : line < u.lineCount := h.lineCount ▸ hline
  have hcontent := h.content hline
  rw [quoteToggles_content hline hi hquote, quoteToggles_content hline' (hcontent ▸ hi) (hcontent ▸ hquote), ← hcontent]
  match i, hi, hquote with
  | 0, _, _ => rfl
  | 1, hi, hquote =>
    by_cases hslash : (Text.content (t.lineText line)).charAt 0 = '\\'
    · have hopens := opensEscaped_of_charAt hi hslash hquote
      have hboth : t.lineIndentEnd line = 0 ↔ u.lineIndentEnd line = 0 :=
        ⟨h.lineIndentEnd_eq_zero hline hopens, h.symm.lineIndentEnd_eq_zero hline' (hcontent ▸ hopens)⟩
      have hfirst : (t.lineIndentEnd line == 0) = (u.lineIndentEnd line == 0) := by
        rw [Bool.eq_iff_iff, beq_iff_eq, beq_iff_eq, hboth]
      rw [hfirst]
    · rw [togglesAt, togglesAt, bne_iff_ne.2 hslash, Bool.or_true, Bool.or_true]
  | i + 2, _, _ => rfl

theorem behind (hline : line < t.lineCount) (d : BlockDepth) : d.behind t .empty line = d.behind u .empty line := by
  have hline' : line < u.lineCount := h.lineCount ▸ hline
  have hcontent := h.content hline
  have hscan := BlockDepth.foldl_read_congr (i := t.lineIndentEnd line) (j := u.lineIndentEnd line)
    (n := (Text.content (t.lineText line)).length) (t := t) (u := u)
    (fun i hi => by rw [charAt_content hline hi, charAt_content hline' (hcontent ▸ hi), hcontent])
    (fun i hi hquote => h.quoteToggles hline hi (charAt_content hline hi ▸ hquote)) (d, false)
  rw [behind_empty hline, behind_empty hline', h.allBlank hline, ← hcontent, hscan]

theorem nestingAt (hline : line ≤ t.lineCount) : nestingAt t .empty line = nestingAt u .empty line := by
  induction line with
  | zero => rfl
  | succ line ih => rw [nestingAt_succ, nestingAt_succ, ih (by omega), h.behind hline]

/-- **The same reading** gives the same levels. -/
theorem levelAt? (hline : line < t.lineCount) : levelAt? t .empty line = levelAt? u .empty line := by
  have hline' : line < u.lineCount := h.lineCount ▸ hline
  rw [levelAt?_empty hline, levelAt?_empty hline', h.allBlank hline, h.content hline, h.nestingAt hline.le]

end SameReading

end CodeEditor
