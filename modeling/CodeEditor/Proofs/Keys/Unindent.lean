import CodeEditor.Keys.IndentLines
import CodeEditor.Proofs.Buffer.Plain
import CodeEditor.Proofs.Text.OutdentRows
/-!
Tab with Shift, line by line.

The numbers of the selected lines are found first, then each of them loses as many blanks as the least indented one can
spare, the first line first (`unindentLines_text`). That number is the least of some (`isLeast_unindentWidth`): nothing
is taken if a line starts with no blank (`unindentLines_of_flush`), and what is taken is blank otherwise
(`unindentsBy_unindentWidth`). The text is what is meant, every line on its own, exactly if no line is renumbered on the
way (`unindentLines_text_eq_iff`); and then no ink is lost (`Bites.renumbers`).
-/

namespace CodeEditor.Buffer

variable (b : Buffer) (unit : IndentUnit)

theorem selectedLines_pairwise : b.selectedLines.Pairwise (· < ·) :=
  List.Pairwise.filter _ List.pairwise_lt_range'

theorem unindentable_pairwise : b.unindentable.Pairwise (· < ·) :=
  b.selectedLines_pairwise.filter _

theorem lt_lineCount_of_selected {b : Buffer} {line : Nat} (h : line ∈ b.selectedLines) : line < b.text.lineCount := by
  have hline := (List.mem_filter.1 h).1
  rw [List.mem_range'_1] at hline
  have := b.text.lineOf_lt b.selectionEnd
  omega

/-- the lines that count are selected and have characters -/
theorem mem_unindentable {b : Buffer} {line : Nat} :
    line ∈ b.unindentable ↔ line ∈ b.selectedLines ∧ b.text.lineText line ≠ [] := by
  rw [unindentable, List.mem_filter]
  refine and_congr_right fun hline => ?_
  have hend := Text.length_lineText (lt_lineCount_of_selected hline)
  rw [bne_iff_ne, ← List.length_pos_iff_ne_nil]
  omega

/-- a minimum that is taken along a list is the least of what it was taken of -/
theorem isLeast_foldl_min (f : Nat → Nat) (lines : List Nat) (n : Nat) :
    IsLeast {k | k = n ∨ ∃ line ∈ lines, f line = k} (lines.foldl (fun width line => min width (f line)) n) := by
  induction lines generalizing n with
  | nil => simp [IsLeast, lowerBounds]
  | cons line lines ih =>
    obtain ⟨hmem, hle⟩ := ih (min n (f line))
    rw [List.foldl_cons]
    set r := lines.foldl (fun width line => min width (f line)) (min n (f line))
    have hr : r ≤ min n (f line) := hle (.inl rfl)
    refine ⟨?_, ?_⟩
    · rcases hmem with hmin | ⟨k, hk, hf⟩
      · rcases min_choice n (f line) with h | h
        · exact .inl (hmin.trans h)
        · exact .inr ⟨line, List.mem_cons_self, (hmin.trans h).symm⟩
      · exact .inr ⟨k, List.mem_cons_of_mem _ hk, hf⟩
    · rintro x (rfl | ⟨k, hk, rfl⟩)
      · exact hr.trans (Nat.min_le_left _ _)
      · rcases List.mem_cons.1 hk with rfl | hk
        · exact hr.trans (Nat.min_le_right _ _)
        · exact hle (.inr ⟨k, hk, rfl⟩)

/-- **How many blanks go**: the least of one unit and the indentations of the lines -/
theorem isLeast_unindentWidth :
    IsLeast {k | k = unit.width ∨ ∃ line ∈ b.unindentable, (b.text.lineIndent line).length = k}
      (b.unindentWidth unit) :=
  isLeast_foldl_min (fun line => (b.text.lineIndent line).length) b.unindentable unit.width

theorem unindentWidth_le {line : Nat} (h : line ∈ b.unindentable) :
    b.unindentWidth unit ≤ (b.text.lineIndent line).length :=
  (b.isLeast_unindentWidth unit).2 (.inr ⟨line, h, rfl⟩)

theorem indented_unindentable {line : Nat} (h : line ∈ b.unindentable) : b.text.Indented (b.unindentWidth unit) line :=
  Text.indented_of_le (lt_lineCount_of_selected (List.mem_filter.1 h).1) (b.unindentWidth_le unit h)

/-- some selected line starts with a character that is no blank -/
def Flush : Prop :=
  ∃ line ∈ b.unindentable, ∃ c ∈ (b.text.lineText line).head?, isBlank c = false

instance : Decidable b.Flush :=
  decidable_of_iff (∃ line ∈ b.unindentable, (b.text.lineText line).head?.any (fun c => !isBlank c) = true)
    (by simp only [Flush, Option.any_eq_true, Option.mem_def, Bool.not_eq_true'])

/-- what Tab with Shift takes away: up to one unit of blanks, and from every line as many as from
the least indented one -/
structure UnindentsBy (n : Nat) : Prop where
  pos : 1 ≤ n
  isLeast : IsLeast {k | k = unit.width ∨ ∃ line ∈ b.unindentable, (b.text.lineIndent line).length = k} n
  le_length : ∀ line ∈ b.unindentable, n ≤ (b.text.lineText line).length
  blank : ∀ line ∈ b.unindentable, Text.allBlank ((b.text.lineText line).take n) = true

theorem UnindentsBy.eq_unindentWidth {b : Buffer} {unit : IndentUnit} {n : Nat} (h : b.UnindentsBy unit n) :
    n = b.unindentWidth unit :=
  h.isLeast.unique (b.isLeast_unindentWidth unit)

/-- **All or nothing**: where no line is flush, blanks go, and nothing but blanks. -/
theorem unindentsBy_unindentWidth (hflush : ¬ b.Flush) : b.UnindentsBy unit (b.unindentWidth unit) := by
  have hleast := b.isLeast_unindentWidth unit
  have hrow : ∀ line ∈ b.unindentable, b.text.lineIndent line ++ Text.content (b.text.lineText line) =
    b.text.lineText line :=
    fun line hline => Text.lineIndent_append_content (lt_lineCount_of_selected (mem_unindentable.1 hline).1)
  refine ⟨?_, hleast, fun line hline => ?_, fun line hline => ?_⟩
  · rcases hleast.1 with hwidth | ⟨line, hline, hindent⟩
    · rw [hwidth]
      exact unit.pos
    · rw [← hindent]
      by_contra hnone
      obtain ⟨hselected, hne⟩ := mem_unindentable.1 hline
      obtain ⟨c, u, hcu⟩ := List.exists_cons_of_ne_nil hne
      have hnil : b.text.lineIndent line = [] := List.length_eq_zero_iff.1 (by omega)
      have hcontent := hrow line hline
      rw [hnil, List.nil_append] at hcontent
      exact hflush ⟨line, hline, c, by rw [hcu]; rfl, Text.isBlank_of_content_eq_cons (hcontent.trans hcu)⟩
  · have hle := b.unindentWidth_le unit hline
    rw [← hrow line hline, List.length_append]
    omega
  · rw [← hrow line hline, List.take_append_of_le_length (b.unindentWidth_le unit hline)]
    have hblank : (b.text.lineIndent line).allBlank = true := Text.allBlank_indentation _
    exact Text.allBlank_of_subset (List.take_subset _ _) hblank

theorem unindentLine_text (width line : Nat) : (b.unindentLine width line).text = b.text.outdent width line :=
  b.erase_text (Nat.le_add_right _ _)

theorem foldl_unindentLine_text (width : Nat) (lines : List Nat) :
    (lines.foldl (fun b line => b.unindentLine width line) b).text =
      b.text.outdentInTurn width lines := by
  induction lines generalizing b with
  | nil => rfl
  | cons line rest ih => rw [List.foldl_cons, ih, unindentLine_text, Text.outdentInTurn_cons]

theorem unindentLines_text :
    (b.unindentLines unit).text = b.text.outdentInTurn (b.unindentWidth unit) b.unindentable := by
  simp only [unindentLines]
  split_ifs with hwidth
  · -- no blanks to take away
    have hsame : ∀ (lines : List Nat) (t : Text), t.outdentInTurn 0 lines = t := by
      intro lines t
      induction lines with
      | nil => rfl
      | cons line rest ih => rw [Text.outdentInTurn_cons, Text.outdent, Nat.add_zero, List.take_append_drop, ih]
    rw [hwidth, hsame]
  · exact b.foldl_unindentLine_text _ _

/-- what Tab with Shift is meant to give: each line loses its blanks, whatever the others lose -/
def outdented : Text :=
  b.text.outdentAll (b.unindentWidth unit) b.unindentable

/-- a selected line melts when its blanks are taken away, and a later one is not the last line of the text -/
def Renumbers : Prop :=
  b.text.Renumbers (b.unindentWidth unit) b.unindentable

instance : Decidable (b.Renumbers unit) :=
  inferInstanceAs (Decidable (Text.Renumbers _ _ _))

/-- where blanks are to be taken away, there is ink when the line has its turn -/
def Bites : Prop :=
  b.text.Bites (b.unindentWidth unit) b.unindentable

instance : Decidable (b.Bites unit) :=
  inferInstanceAs (Decidable (Text.Bites _ _ _))

variable {b unit}

/-- **A flush line stops everything**, and so does a selection of empty lines. -/
theorem unindentLines_of_flush (h : b.unindentable = [] ∨ b.Flush) : b.unindentLines unit = b := by
  rw [unindentLines]
  rcases h with hnone | ⟨line, hline, c, hc, hblank⟩
  · rw [hnone, List.foldl_nil, ite_self]
  · obtain ⟨u, hcu⟩ := List.head?_eq_some_iff.1 hc
    have hindent : (b.text.lineIndent line).length = 0 := by
      rw [Text.lineIndent_eq (lt_lineCount_of_selected (mem_unindentable.1 hline).1), hcu, Text.indentation,
        List.takeWhile_cons_of_neg (by rw [hblank]; exact Bool.false_ne_true), List.length_nil]
    exact if_pos (Nat.le_zero.1 (hindent ▸ b.unindentWidth_le unit hline))

/-- **Tab with Shift takes the blanks it is meant to take**, exactly if no line is renumbered. -/
theorem unindentLines_text_eq_iff : (b.unindentLines unit).text = b.outdented unit ↔ ¬ b.Renumbers unit := by
  rw [unindentLines_text]
  exact Text.outdentInTurn_eq_outdentAll_iff b.unindentable_pairwise fun _ => b.indented_unindentable unit

/-- what is meant, line after line -/
theorem outdented_eq_withoutStarts : b.outdented unit = b.text.withoutStarts (b.unindentWidth unit) b.unindentable :=
  Text.outdentAll_eq_withoutStarts b.unindentable_pairwise fun _ => b.indented_unindentable unit

/-- **Every selected line is left with what it should be, and every other line with what it was**,
exactly if none melts. -/
theorem losesStarts_unindentLines_iff :
    b.text.LosesStarts (b.unindentLines unit).text (b.unindentWidth unit) b.unindentable ↔
      ∀ line ∈ b.unindentable, ¬ b.text.Melts (b.unindentWidth unit) line := by
  rw [unindentLines_text]
  exact Text.losesStarts_outdentInTurn_iff b.unindentable_pairwise fun _ => b.indented_unindentable unit

theorem ink_unindentLines_eq_iff : Text.ink (b.unindentLines unit).text = Text.ink b.text ↔ ¬ b.Bites unit := by
  rw [unindentLines_text]
  exact Text.ink_outdentInTurn_eq_iff _ _ _

/-- **Tab with Shift keeps the ink** while no line is renumbered. -/
theorem Bites.renumbers (h : b.Bites unit) : b.Renumbers unit :=
  Text.Bites.renumbers h b.unindentable_pairwise fun _ => b.indented_unindentable unit

end CodeEditor.Buffer
