import CodeEditor.Proofs.Indent.Reindent
import CodeEditor.Proofs.Keys.NewLine
/-!
Reindenting changes leading blanks only.

The rows behind a run are those of the levels (`lineText_reindent`), so a row differs from what it was exactly if the
plan has a change for it (`lineText_reindent_eq_iff`), and the number that a run returns, the length of the plan, is
that of the rows that differ. The blanks taken away and put in hold no break, so all breaks stay as well.

A row ends where the last character of its break stands. A row of blanks before a CR LF has the CR
in it, so it is not blank.
-/

namespace CodeEditor

open Text

variable {t : Text} {spans : Spans} {unit : IndentUnit} {line : Nat}

/-! ## The plan -/

theorem mem_planReindent_iff {change : LineIndent} :
    change ∈ planReindent t spans unit ↔
      change.line < t.lineCount ∧ changeAt? t spans unit change.line = some change := by
  rw [planReindent_eq, List.mem_filterMap]
  constructor
  · rintro ⟨line, hline, hchange⟩
    obtain ⟨level, -, -, rfl⟩ := changeAt?_eq_some hchange
    exact ⟨List.mem_range.1 hline, hchange⟩
  · rintro ⟨hline, hchange⟩
    exact ⟨change.line, List.mem_range.2 hline, hchange⟩

/-- a line that no change of the plan is for -/
theorem changeAt?_eq_none_iff (hline : line < t.lineCount) :
    changeAt? t spans unit line = none ↔ ∀ indent, ⟨line, indent⟩ ∉ planReindent t spans unit := by
  constructor
  · intro hnone indent hmem
    rw [(mem_planReindent_iff.1 hmem).2] at hnone
    cases hnone
  · intro hnot
    by_contra hsome
    obtain ⟨change, hchange⟩ := Option.ne_none_iff_exists'.1 hsome
    obtain ⟨level, -, -, rfl⟩ := changeAt?_eq_some hchange
    exact hnot _ (mem_planReindent_iff.2 ⟨hline, hchange⟩)

/-- a row of blanks is in no plan -/
theorem changeAt?_of_allBlank (hline : line < t.lineCount) (hblank : (t.lineText line).allBlank = true) :
    changeAt? t spans unit line = none := by
  by_contra hsome
  obtain ⟨change, hchange⟩ := Option.ne_none_iff_exists'.1 hsome
  obtain ⟨level, hlevel, -, -⟩ := changeAt?_eq_some hchange
  rw [allBlank_of_levelAt? hline hlevel] at hblank
  cases hblank

/-! ## The rows -/

theorem breaks_setIndent (t : Text) (line : Nat) {u : Text} (hu : u.allBlank = true) :
    (t.setIndent line u).breaks = t.breaks := by
  have hstart : t.lineStart line ≤ t.lineIndentEnd line := Nat.le_add_right _ _
  have hblank : (t.slice (t.lineStart line) (t.lineIndentEnd line)).allBlank = true := by
    rw [slice_lineIndent]
    exact allBlank_indentation _
  rw [Text.setIndent, breaks_append, breaks_append, breaks_of_allBlank hu, List.append_nil, breaks_drop hstart hblank,
    ← breaks_append, List.take_append_drop]

section

variable (t spans) (unit : IndentUnit)

theorem breaks_reindent : (t.reindent spans unit).breaks = t.breaks := by
  have hplan : ∀ change ∈ planReindent t spans unit, change.indent.allBlank = true := by
    intro change hchange
    obtain ⟨level, -, -, hlevels⟩ := changeAt?_eq_some (mem_planReindent_iff.1 hchange).2
    rw [hlevels]
    exact unit.allBlank_levels level
  rw [Text.reindent, Text.setIndents]
  generalize planReindent t spans unit = plan at hplan
  induction plan with
  | nil => rfl
  | cons change plan ih =>
    obtain ⟨hblank, hrest⟩ := List.forall_mem_cons.1 hplan
    rw [List.foldr_cons, breaks_setIndent _ _ hblank, ih hrest]

/-- **A row changes** exactly if the plan has a change for it. -/
theorem lineText_reindent_eq_iff (hline : line < t.lineCount) :
    (t.reindent spans unit).lineText line = t.lineText line ↔ changeAt? t spans unit line = none := by
  rw [lineText_reindent t spans unit hline]
  constructor
  · intro hsame
    by_contra hsome
    obtain ⟨change, hchange⟩ := Option.ne_none_iff_exists'.1 hsome
    obtain ⟨level, hlevel, hne, -⟩ := changeAt?_eq_some hchange
    rw [reindentedRow_of_some unit hlevel] at hsame
    have hblanks := hsame.trans (lineIndent_append_content hline).symm
    exact hne (List.append_cancel_right hblanks).symm
  · exact reindentedRow_of_none hline

/-- **The length of the plan** is the number of rows that change. -/
theorem length_planReindent : (planReindent t spans unit).length =
    (List.range t.lineCount).countP fun line => (t.reindent spans unit).lineText line ≠ t.lineText line := by
  rw [planReindent_eq, List.length_filterMap_eq_countP]
  refine List.countP_congr fun line hline => ?_
  have hiff := lineText_reindent_eq_iff t spans unit (List.mem_range.1 hline)
  rw [decide_eq_true_iff, ne_eq, hiff, Option.isSome_iff_ne_none]

/-- a planned line gets the planned blanks -/
theorem lineIndent_reindent_of_mem {change : LineIndent} (h : change ∈ planReindent t spans unit) :
    (t.reindent spans unit).lineIndent change.line = change.indent := by
  obtain ⟨hline, hchange⟩ := mem_planReindent_iff.1 h
  obtain ⟨level, hlevel, -, heq⟩ := changeAt?_eq_some hchange
  rw [lineIndent_reindent t spans unit hline hlevel, heq]

end

namespace Buffer

/-- **Reindenting changes leading blanks only**, whatever the text, the comments and strings in it, and the unit. There
are as many lines as before, and the same breaks. Every line has the content that it had behind its leading blanks, a
line of blanks is as it was, a line in the plan has the planned blanks, and a line that is not in the plan is as it was.
The number that is returned is that of the lines that differ. -/
theorem reindent_changes_leading_blanks (b : Buffer) (spans : Spans) (unit : IndentUnit) :
    let plan := planReindent b.text spans unit
    let after := (b.reindent spans unit).2.text
    after.lineCount = b.text.lineCount ∧ after.breaks = b.text.breaks ∧
      (∀ line < b.text.lineCount,
        content (after.lineText line) = content (b.text.lineText line) ∧
          ((b.text.lineText line).allBlank = true → after.lineText line = b.text.lineText line) ∧
          ((∀ indent, ⟨line, indent⟩ ∉ plan) → after.lineText line = b.text.lineText line)) ∧
      (∀ change ∈ plan, change.line < b.text.lineCount ∧ after.lineIndent change.line = change.indent) ∧
      (b.reindent spans unit).1 = (List.range b.text.lineCount).countP fun line =>
        after.lineText line ≠ b.text.lineText line := by
  intro plan after
  have hafter : after = b.text.reindent spans unit := b.reindent_text spans unit
  rw [hafter]
  refine ⟨lineCount_reindent _ _ _, breaks_reindent _ _ _, fun line hline => ⟨?_, fun hblank => ?_, fun hnot => ?_⟩,
    fun change hchange => ⟨?_, ?_⟩, length_planReindent _ _ _⟩
  · exact content_lineText_reindent _ _ _ hline
  · exact (lineText_reindent_eq_iff _ _ _ hline).2 (changeAt?_of_allBlank hline hblank)
  · exact (lineText_reindent_eq_iff _ _ _ hline).2 ((changeAt?_eq_none_iff hline).2 hnot)
  · exact (mem_planReindent_iff.1 hchange).1
  · exact lineIndent_reindent_of_mem _ _ _ hchange

/-- a CR LF, a line of blanks and a VT: two lines get other blanks -/
theorem reindent_over_mixed_breaks :
    let b := ofText "\x7b\r\na\n \t\n\x0b  \x7d".toList
    let after := (b.reindent .empty .default).2.text
    after = "\x7b\r\n  a\n \t\n\x0b\x7d".toList ∧ after.lineCount = b.text.lineCount ∧
      after.lineText 2 = b.text.lineText 2 ∧ (b.reindent .empty .default).1 = 2 := by
  intro b after
  have htext : after = "\x7b\r\n  a\n \t\n\x0b\x7d".toList := by
    unfold after b
    decide +kernel
  obtain ⟨hcount, -, hlines, -, hchanged⟩ := reindent_changes_leading_blanks b .empty .default
  have hnumber : ((List.range b.text.lineCount).countP fun line => after.lineText line ≠ b.text.lineText line) = 2 := by
    rw [htext]
    unfold b
    decide +kernel
  exact ⟨htext, hcount, (hlines 2 (by decide)).2.1 (by decide), hchanged.trans hnumber⟩

end Buffer

end CodeEditor
