import CodeEditor.Proofs.Indent.LineShape
import CodeEditor.Proofs.Indent.RowByRow
import CodeEditor.Proofs.Outline.Basic
/-!
Reindenting a program.

A program is a list of statements, each line of it on a line of the text: a simple statement under any number of heads,
each of them on its own line, or a block around a program. Whatever blanks stand before the lines and whatever lines of
blanks between them, reindenting puts every line at its depth, the number of blocks around it and of heads above it
(`program_is_put_at_its_depth`).

Lines are put at their depth (`Indents`) if a pass that starts in one nesting gives every one of them its depth and ends
in another nesting. One line is, by the nesting before it (`Indents.line`), lines behind lines are (`Indents.append`),
and a program is built from these: it starts and ends in the nesting of the blocks around it, with no head waiting.
-/

namespace CodeEditor

open Text

/-- statements, one after the other -/
inductive Program where
  | done
  /-- a simple statement under some heads, the outermost first -/
  | statement (heads : List (Head × Word)) (word : Word) (rest : Program)
  | block (header : Word) (body rest : Program)

namespace Program

/-- the lines of a simple statement under heads -/
def statementLines (depth : Nat) (word : Word) : List (Head × Word) → List Line
  | [] => [.simple depth word]
  | (head, condition) :: heads => .head depth head condition :: statementLines (depth + 1) word heads

/-- the lines of a program at some depth -/
def lines (depth : Nat) : Program → List Line
  | done => []
  | statement heads word rest => statementLines depth word heads ++ rest.lines depth
  | block header body rest => .opener depth header :: (body.lines (depth + 1) ++ .closer depth :: rest.lines depth)

end Program

/-! ## Lines in a pass -/

/-- a pass over rows with the contents of the lines puts them at their depths, and leads from
one nesting to the other -/
def Indents (unit : IndentUnit) (d : BlockDepth) (lines : List Line) (d' : BlockDepth) : Prop :=
  ∀ rows more : List Text, rows.map content = lines.map Line.content →
    d.indentRows unit (rows ++ more) = lines.map (Line.text unit) ++ d'.indentRows unit more

namespace Indents

variable {unit : IndentUnit} {d d' d'' : BlockDepth} {ls ms : List Line} {l : Line}

theorem nil : Indents unit d [] d := by
  intro rows more h
  rw [List.map_eq_nil_iff.1 h]
  rfl

theorem append (hl : Indents unit d ls d') (hm : Indents unit d' ms d'') : Indents unit d (ls ++ ms) d'' := by
  intro rows more h
  rw [List.map_append] at h
  obtain ⟨first, second, rfl, hfirst, hsecond⟩ := List.map_eq_append_iff.1 h
  rw [List.append_assoc, hl first _ hfirst, hm second more hsecond, List.map_append, List.append_assoc]

/-- **One line** is put at the level it has in the nesting before it. -/
theorem line (hne : l.content ≠ []) (hbrackets : d.brackets ≤ 0) (hfirst : l.content.charAt 0 ≠ '#')
    (hlevel : d.level (l.content.charAt 0) = l.depth) (hafter : d.after l.content = d') : Indents unit d [l] d' := by
  intro rows more h
  obtain ⟨row, rows, rfl, hrow, hnil⟩ := List.map_eq_cons_iff.1 h
  obtain rfl := List.map_eq_nil_iff.1 hnil
  have hink : row.allBlank = false := by
    rw [← content_ne_nil_iff, hrow]
    exact hne
  rw [List.singleton_append, BlockDepth.indentRows, BlockDepth.indentRow, BlockDepth.afterRow, hink, hrow,
    if_neg Bool.false_ne_true, if_pos ⟨hbrackets, hfirst⟩, hlevel, if_neg Bool.false_ne_true, hafter]
  rfl

theorem cons (hl : Indents unit d [l] d') (hm : Indents unit d' ms d'') : Indents unit d (l :: ms) d'' :=
  hl.append hm

end Indents

/-! ## The lines of a program -/

/-- a letter is neither a bracket nor a brace -/
theorem BlockDepth.readChar_of_isAlphabetic {c : Char} (h : isAlphabetic c = true) (d : BlockDepth) :
    d.readChar c = d := by
  have hne (e : Char) (he : isAlphabetic e = false) : c ≠ e := ne_of_class h he
  simp [readChar, hne '{' rfl, hne '}' rfl, hne '(' rfl, hne '[' rfl, hne ')' rfl, hne ']' rfl]

theorem BlockDepth.foldl_readChar_letters {u : Text} (hu : ∀ c ∈ u, isAlphabetic c = true) (d : BlockDepth) :
    u.foldl readChar d = d := by
  induction u with
  | nil => rfl
  | cons c u ih =>
    rw [List.foldl_cons, readChar_of_isAlphabetic (hu c List.mem_cons_self)]
    exact ih fun e he => hu e (List.mem_cons_of_mem c he)

theorem BlockDepth.foldl_readChar_word (w : Word) (d : BlockDepth) : w.text.foldl readChar d = d :=
  foldl_readChar_letters w.alphabetic d

theorem Word.charAt_zero (w : Word) (u : Text) : isAlphabetic (charAt (w.text ++ u) 0) = true := by
  obtain ⟨c, t, hcons, hc⟩ := w.exists_cons
  rw [hcons]
  exact hc

namespace Indents

variable {unit : IndentUnit}

/-- a line that starts with a word is put behind the heads that wait -/
theorem of_word {depth heads : Nat} {w : Word} {u : Text} {d' : BlockDepth}
    (h : (BlockDepth.mk depth 0 heads).after (w.text ++ u) = d') :
    Indents unit ⟨depth, 0, heads⟩ [⟨depth + heads, w.text ++ u⟩] d' := by
  have hne (e : Char) (he : isAlphabetic e = false) : charAt (w.text ++ u) 0 ≠ e := ne_of_class (w.charAt_zero u) he
  refine .line (by simp [w.ne_nil]) le_rfl (hne '#' rfl) ?_ h
  rw [BlockDepth.level, if_neg (hne '}' rfl), if_neg (hne '{' rfl)]
  exact Int.toNat_natCast _

theorem simple (depth heads : Nat) (word : Word) :
    Indents unit ⟨depth, 0, heads⟩ [.simple (depth + heads) word] ⟨depth, 0, 0⟩ := by
  refine of_word ?_
  rw [BlockDepth.after, LineShape.isHeadless_concat _ (Or.inl rfl), List.foldl_append, BlockDepth.foldl_readChar_word]
  rfl

theorem head (depth heads : Nat) (head : Head) (condition : Word) :
    Indents unit ⟨depth, 0, heads⟩ [.head (depth + heads) head condition] ⟨depth, 0, heads + 1⟩ := by
  have hheads : head.text ∈ LineShape.heads := by cases head <;> decide
  have hheadless : (LineShape.ofLine ([] ++ (head.text ++ ' ' :: '(' :: (condition.text ++ [')'])))).isHeadless =
    true :=
    LineShape.isHeadless_head (List.forall_mem_nil _) hheads
  refine of_word (w := head.word) ?_
  rw [List.nil_append] at hheadless
  rw [BlockDepth.after, show head.word.text = head.text from rfl, hheadless, List.foldl_append, List.foldl_cons,
    List.foldl_cons, List.foldl_append, BlockDepth.foldl_readChar_letters head.alphabetic,
    BlockDepth.foldl_readChar_word]
  rfl

theorem opener (depth : Nat) (header : Word) :
    Indents unit ⟨depth, 0, 0⟩ [.opener depth header] ⟨depth + 1, 0, 0⟩ := by
  have hshape : (LineShape.ofLine (header.text ++ [' ', '{'])).isHeadless = false := by
    rw [show header.text ++ [' ', '{'] = (header.text ++ [' ']) ++ ['{'] by simp]
    exact LineShape.isHeadless_concat _ (Or.inr (Or.inr rfl))
  refine of_word ?_
  rw [BlockDepth.after, hshape, List.foldl_append, BlockDepth.foldl_readChar_word]
  rfl

theorem closer (depth : Nat) : Indents unit ⟨depth + 1, 0, 0⟩ [.closer depth] ⟨depth, 0, 0⟩ := by
  have hback : ((depth : Int) + 1) - 1 = depth := Int.add_sub_cancel _ _
  refine .line (List.cons_ne_nil _ _) le_rfl (show '}' ≠ '#' by decide) ?_ ?_
  · show (BlockDepth.mk (depth + 1) 0 0).level '}' = depth
    rw [BlockDepth.level, if_pos rfl, hback]
    exact Int.toNat_natCast depth
  · show BlockDepth.after ⟨depth + 1, 0, 0⟩ ([] ++ ['}']) = _
    rw [BlockDepth.after, LineShape.isHeadless_concat [] (Or.inr (Or.inl rfl)), List.nil_append, List.foldl_cons,
      List.foldl_nil]
    simp [BlockDepth.readChar]

end Indents

namespace Program

variable {unit : IndentUnit}

theorem indents_statement (depth heads : Nat) (word : Word) (chain : List (Head × Word)) :
    Indents unit ⟨depth, 0, heads⟩ (statementLines (depth + heads) word chain) ⟨depth, 0, 0⟩ := by
  induction chain generalizing heads with
  | nil => exact .simple depth heads word
  | cons link chain ih =>
    obtain ⟨head, condition⟩ := link
    exact .cons (.head depth heads head condition) (ih (heads + 1))

/-- **A program** is put at its depth, and leaves the nesting as it was. -/
theorem indents_lines (p : Program) (depth : Nat) : Indents unit ⟨depth, 0, 0⟩ (p.lines depth) ⟨depth, 0, 0⟩ := by
  induction p generalizing depth with
  | done => exact .nil
  | statement heads word rest ih => exact .append (indents_statement depth 0 word heads) (ih depth)
  | block header body rest ihbody ihrest =>
    have hbody : Indents unit ⟨depth + 1, 0, 0⟩ (body.lines (depth + 1)) ⟨depth + 1, 0, 0⟩ := ihbody (depth + 1)
    have hrest : Indents unit ⟨depth + 1, 0, 0⟩ (.closer depth :: rest.lines depth) ⟨depth, 0, 0⟩ :=
      .cons (.closer depth) (ihrest depth)
    exact .cons (.opener depth header) (hbody.append hrest)

end Program

/-! ## The text of a program -/

/-- the rows that have more than blanks -/
def Text.inkedRows (t : Text) : List Text :=
  t.rows.filter (!·.allBlank)

/-- the text holds the program: its rows with more than blanks are the lines of the program, each behind any blanks -/
def Text.Holds (t : Text) (p : Program) : Prop :=
  t.inkedRows.map content = (p.lines 0).map Line.content

instance (t : Text) (p : Program) : Decidable (t.Holds p) :=
  inferInstanceAs (Decidable (_ = _))

namespace Program

theorem quote_not_mem_statementLines (depth : Nat) (word : Word) (heads : List (Head × Word)) :
    ∀ l ∈ statementLines depth word heads, '\'' ∉ l.content := by
  induction heads generalizing depth with
  | nil =>
    intro l hl
    rw [List.mem_singleton.1 hl]
    simp [Line.simple, word.not_mem (c := '\'') rfl]
  | cons link heads ih =>
    obtain ⟨head, condition⟩ := link
    intro l hl
    rcases List.mem_cons.1 hl with rfl | hl
    · have hhead : '\'' ∉ head.text := head.word.not_mem rfl
      simp [Line.head, hhead, condition.not_mem (c := '\'') rfl]
    · exact ih (depth + 1) l hl

theorem quote_not_mem_lines (p : Program) (depth : Nat) : ∀ l ∈ p.lines depth, '\'' ∉ l.content := by
  induction p generalizing depth with
  | done => exact List.forall_mem_nil _
  | statement heads word rest ih =>
    exact List.forall_mem_append.2 ⟨quote_not_mem_statementLines depth word heads, ih depth⟩
  | block header body rest ihbody ihrest =>
    refine List.forall_mem_cons.2
      ⟨?_, List.forall_mem_append.2 ⟨ihbody (depth + 1), List.forall_mem_cons.2 ⟨?_, ihrest depth⟩⟩⟩
    · simp [Line.opener, header.not_mem (c := '\'') rfl]
    · simp [Line.closer]

end Program

/-- a text that holds a program has no quotes -/
theorem Text.Holds.quote_not_mem {t : Text} {p : Program} (h : t.Holds p) : ∀ row ∈ t.rows, '\'' ∉ row := by
  intro row hrow hquote
  rw [← indentation_append_content row] at hquote
  rcases List.mem_append.1 hquote with hquote | hquote
  · exact absurd (List.all_eq_true.1 row.allBlank_indentation _ hquote) (by decide)
  · have hink : row.allBlank = false := by
      exact content_ne_nil_iff.1 (List.ne_nil_of_mem hquote)
    have hmem : row.content ∈ t.inkedRows.map content :=
      List.mem_map_of_mem (List.mem_filter.2 ⟨hrow, by rw [hink]; rfl⟩)
    rw [h] at hmem
    obtain ⟨l, hl, hcontent⟩ := List.mem_map.1 hmem
    exact p.quote_not_mem_lines 0 l hl (hcontent ▸ hquote)

/-- one item to a line, with blanks before it or nothing else -/
theorem Text.holds_intercalate {p : Program} {rows : List Text} (hne : rows ≠ [])
    (hline : ∀ row ∈ rows, ∀ c ∈ row, isBreak c = false)
    (h : (rows.filter (!·.allBlank)).map content = (p.lines 0).map Line.content) :
    Holds (['\n'].intercalate rows) p := by
  rw [Holds, inkedRows, rows_intercalate hne hline]
  exact h

theorem BlockDepth.allBlank_indentRow (d : BlockDepth) (unit : IndentUnit) (row : Text) :
    (d.indentRow unit row).allBlank = row.allBlank := by
  unfold indentRow
  split_ifs with hblank
  · rfl
  · have hcontent := content_append (unit.allBlank_levels (d.level (row.content.charAt 0))) row.content
    rw [content_content] at hcontent
    rw [Bool.eq_iff_iff, ← content_eq_nil_iff, ← content_eq_nil_iff, hcontent]
  · rfl

/-- rows of blanks do not matter to a pass -/
theorem BlockDepth.filter_indentRows (d : BlockDepth) (unit : IndentUnit) (rows : List Text) :
    (d.indentRows unit rows).filter (!·.allBlank) = d.indentRows unit (rows.filter (!·.allBlank)) := by
  induction rows generalizing d with
  | nil => rfl
  | cons row rows ih =>
    have hsame := d.allBlank_indentRow unit row
    rw [indentRows, List.filter_cons, List.filter_cons, hsame, ih]
    cases hrow : row.allBlank with
    | false => rfl
    | true =>
      rw [afterRow, if_pos hrow]
      rfl

/-- **Reindenting a program.** A text holds the lines of a program in order, each behind blanks of any kind and number,
and between them lines of blanks anywhere. Reindenting it makes the rows that have more than blanks those of the program
at its depth: the indentation of each is the unit, as often as there are blocks around it and heads above it. -/
theorem program_is_put_at_its_depth (p : Program) (unit : IndentUnit) (b : Buffer)
    (h : b.text.Holds p) : (b.reindent .empty unit).2.text.inkedRows = (p.lines 0).map (Line.text unit) := by
  have hpass : BlockDepth.indentRows ⟨0, 0, 0⟩ unit (b.text.inkedRows ++ []) = _ := p.indents_lines 0 _ [] h
  rw [List.append_nil, BlockDepth.indentRows, List.append_nil] at hpass
  rw [Buffer.reindent_text, inkedRows, rows_reindent h.quote_not_mem, BlockDepth.filter_indentRows]
  exact hpass

/-- two loops over one statement in a block, with blanks before some of the lines and lines of blanks between them -/
theorem loops_in_block_are_put_at_their_depth :
    let p : Program := .block (Outline.letter 'a' rfl)
      (.statement [(.counting, Outline.letter 'b' rfl), (.repeating, Outline.letter 'c' rfl)] (Outline.letter 'd' rfl)
        (.statement [] (Outline.letter 'e' rfl) .done))
      (.statement [] (Outline.letter 'f' rfl) .done)
    let rows := ["\t a \x7b".toList, "for (b)".toList, [], "   while (c)".toList, "d;".toList, " \t".toList,
      "\te;".toList,
      "      \x7d".toList, " f;".toList]
    let b := Buffer.ofText (['\n'].intercalate rows)
    b.text.Holds p ∧
      (b.reindent .empty .default).2.text.inkedRows =
        ["a \x7b".toList, "  for (b)".toList, "    while (c)".toList, "      d;".toList, "  e;".toList, "\x7d".toList,
          "f;".toList] := by
  intro p rows b
  have hunbroken : (rows.all fun row => row.all (!isBreak ·)) = true := by decide
  have hline : ∀ row ∈ rows, ∀ c ∈ row, isBreak c = false := by simpa using hunbroken
  have hholds : b.text.Holds p := holds_intercalate (List.cons_ne_nil _ _) hline (by decide)
  have hlines := program_is_put_at_its_depth p .default b hholds
  exact ⟨hholds, hlines.trans (by decide)⟩

end CodeEditor
