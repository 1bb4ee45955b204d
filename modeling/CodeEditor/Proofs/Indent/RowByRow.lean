import CodeEditor.Proofs.Indent.Reading
/-!
Reindenting row by row.

In a text without comments, strings and single quotes every character counts for itself. So reindenting is one pass over
the rows that carries the nesting along (`rows_reindent`): a row of blanks is left and changes nothing, and any other is
put at its level and has its brackets counted.
-/

namespace CodeEditor

open Text

namespace BlockDepth

/-- the nesting behind a character that is no quote -/
def readChar (d : BlockDepth) (c : Char) : BlockDepth :=
  if c = '{' then { d with braces := d.braces + 1 }
  else if c = '}' then { d with braces := d.braces - 1 }
  else if c = '(' || c = '[' then { d with brackets := d.brackets + 1 }
  else if c = ')' || c = ']' then { d with brackets := d.brackets - 1 }
  else d

/-- the nesting behind a line with this content -/
def after (d : BlockDepth) (c : Text) : BlockDepth :=
  { c.foldl readChar d with heads := if (LineShape.ofLine c).isHeadless then d.heads + 1 else 0 }

/-- the nesting behind a row -/
def afterRow (d : BlockDepth) (row : Text) : BlockDepth :=
  if row.allBlank then d else d.after row.content

/-- a row at its level, if it gets one -/
def indentRow (d : BlockDepth) (unit : IndentUnit) (row : Text) : Text :=
  if row.allBlank then row
  else if d.brackets ≤ 0 ∧ row.content.charAt 0 ≠ '#' then unit.levels (d.level (row.content.charAt 0)) ++ row.content
  else row

/-- rows at their levels, one after the other -/
def indentRows (d : BlockDepth) (unit : IndentUnit) : List Text → List Text
  | [] => []
  | row :: rows => d.indentRow unit row :: (d.afterRow row).indentRows unit rows

variable {t c : Text} {d : BlockDepth} {unit : IndentUnit}

theorem read_eq_readChar {offset : Nat} (h : t.charAt offset ≠ '\'') :
    read t .empty (d, false) offset = (d.readChar (t.charAt offset), false) := by
  simp only [read, readChar, Spans.covers_empty, Bool.false_eq_true, if_false, if_neg h]
  split_ifs <;> rfl

theorem foldl_read_eq_foldl_readChar {offset : Nat} (hchar : ∀ i < c.length, t.charAt (offset + i) = c.charAt i)
    (hquote : '\'' ∉ c) :
    (List.range' offset c.length).foldl (read t .empty) (d, false) = (c.foldl readChar d, false) := by
  induction c generalizing offset d with
  | nil => rfl
  | cons e c ih =>
    obtain ⟨he, hc⟩ := not_or.1 (List.mem_cons.not.1 hquote)
    have hfirst : t.charAt offset = e := hchar 0 (by simp)
    have hrest : ∀ i < c.length, t.charAt (offset + 1 + i) = Text.charAt c i := fun i hi => by
      rw [Nat.add_assoc, Nat.add_comm 1]
      exact hchar (i + 1) (by simpa using hi)
    rw [List.length_cons, List.range'_succ, List.foldl_cons, List.foldl_cons,
      read_eq_readChar (hfirst ▸ Ne.symm he), hfirst]
    exact ih hrest hc

end BlockDepth

variable {t : Text} {unit : IndentUnit} {line : Nat}

/-- what a line without quotes does to the nesting depends on its row only -/
theorem nestingAt_succ_eq_afterRow (h : line < t.lineCount) (hquote : '\'' ∉ t.lineText line) :
    nestingAt t .empty (line + 1) = (nestingAt t .empty line).afterRow (t.lineText line) := by
  have hcontent : '\'' ∉ content (t.lineText line) := fun hmem => hquote ((List.dropWhile_suffix isBlank).subset hmem)
  rw [nestingAt_succ, behind_empty h, BlockDepth.foldl_read_eq_foldl_readChar
    (fun i hi => charAt_content h hi) hcontent, BlockDepth.afterRow]
  cases hrow : (t.lineText line).allBlank with
  | false => rfl
  | true =>
    rw [content_eq_nil_iff.2 hrow]
    rfl

theorem reindentedRow_eq_indentRow (h : line < t.lineCount) :
    reindentedRow t .empty unit line = (nestingAt t .empty line).indentRow unit (t.lineText line) := by
  rw [reindentedRow, levelAt?_empty h, BlockDepth.indentRow]
  split_ifs <;> rfl

/-- **Row by row**: without quotes, reindenting is one pass over the rows. -/
theorem rows_reindent (hquote : ∀ row ∈ t.rows, '\'' ∉ row) :
    (t.reindent .empty unit).rows = BlockDepth.indentRows ⟨0, 0, 0⟩ unit t.rows := by
  -- from any line on, with the nesting that the lines before it leave
  have hfrom : ∀ n line, line + n = t.lineCount →
      (List.range' line n).map (reindentedRow t .empty unit) =
        (nestingAt t .empty line).indentRows unit ((List.range' line n).map t.lineText) := by
    intro n
    induction n with
    | zero => intro line _; rfl
    | succ n ih =>
      intro line hline
      have hlt : line < t.lineCount := by omega
      have hrow : '\'' ∉ t.lineText line := hquote _ (List.mem_map_of_mem (List.mem_range.2 hlt))
      rw [List.range'_succ, List.map_cons, List.map_cons, BlockDepth.indentRows, reindentedRow_eq_indentRow hlt,
        ih (line + 1) (by omega), nestingAt_succ_eq_afterRow hlt hrow]
  have hrows : (t.reindent .empty unit).rows = (List.range t.lineCount).map (reindentedRow t .empty unit) := by
    rw [rows, lineCount_reindent t .empty unit]
    exact List.map_congr_left fun line hline => lineText_reindent t .empty unit (List.mem_range.1 hline)
  rw [hrows, rows, List.range_eq_range']
  exact hfrom t.lineCount 0 (Nat.zero_add _)

end CodeEditor
