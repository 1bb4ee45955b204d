import CodeEditor.Proofs.Indent.Reading
/-!
Reindenting twice.

Reindenting changes blanks, and the levels of the lines are read off their contents, so a second run finds the
levels of the first and has nothing to do. Only a text of blanks and then a backslash and a quote
(`EscapedBehindBlanks`) is read in another way once the first run has taken the blanks away: now the quote stands at
the second place of the text and opens a quotation. In any case the second run reads the text as the one without its
leading blanks (`sameReading_reindent`), so what it does can be told from that (`reindent_twice`), and a third run
has nothing to do at all.
-/

namespace CodeEditor

open Text

variable {t : Text} {unit : IndentUnit}

/-! ## Leading blanks of the text -/

namespace Text

/-- blanks, and behind them a backslash and a quote -/
def EscapedBehindBlanks (t : Text) : Prop :=
  t.indentation ≠ [] ∧ t.content.OpensEscaped

instance (t : Text) : Decidable t.EscapedBehindBlanks :=
  inferInstanceAs (Decidable (_ ∧ _))

/-- a text that starts with a backslash starts with no blanks -/
theorem OpensEscaped.content_eq (h : t.OpensEscaped) : t.content = t := by
  obtain ⟨rest, rfl⟩ := h
  rfl

theorem OpensEscaped.indentation_eq (h : t.OpensEscaped) : t.indentation = [] := by
  obtain ⟨rest, rfl⟩ := h
  rfl

/-- without the leading blanks the first row is another, and the rest the same -/
theorem rows_eq_indentation_append (t : Text) :
    ∃ first behind, t.content.rows = first :: behind ∧ t.rows = (t.indentation ++ first) :: behind := by
  have hwhole := rows_allBlank_append t.allBlank_indentation t.content.rows_eq_cons
  rw [indentation_append_content] at hwhole
  exact ⟨_, _, t.content.rows_eq_cons, hwhole⟩

theorem map_content_rows (t : Text) : t.content.rows.map content = t.rows.map content := by
  obtain ⟨first, behind, hcontent, hrows⟩ := t.rows_eq_indentation_append
  rw [hcontent, hrows, List.map_cons, List.map_cons, content_append t.allBlank_indentation]

theorem content_take_content (t : Text) (n : Nat) : content (t.content.take n) = t.content.take n := by
  cases hcontent : t.content with
  | nil => simp [content]
  | cons d c =>
    have hd := isBlank_of_content_eq_cons hcontent
    cases n with
    | zero => rfl
    | succ n => simp [content, hd]

theorem content_lineText_zero (t : Text) : content (t.lineText 0) = t.content.lineText 0 := by
  obtain ⟨first, behind, hcontent, hrows⟩ := t.rows_eq_indentation_append
  have hfirst : t.content.lineText 0 = first := lineText_of_rows (by rw [hcontent]; rfl)
  have hrow : t.lineText 0 = t.indentation ++ first := lineText_of_rows (by rw [hrows]; rfl)
  rw [hrow, content_append t.allBlank_indentation, hfirst, ← hfirst, lineText_zero, content_take_content]

/-- only blanks before it keep a content from opening the text with an escaped quote -/
theorem opensEscaped_content_iff (h : ¬ t.EscapedBehindBlanks) : t.OpensEscaped ↔ t.content.OpensEscaped := by
  refine ⟨fun hopens => by rwa [hopens.content_eq], fun hopens => ?_⟩
  have hnone : t.indentation = [] := by
    by_contra hsome
    exact h ⟨hsome, hopens⟩
  have hsplit := indentation_append_content t
  rw [hnone, List.nil_append] at hsplit
  rwa [hsplit] at hopens

end Text

/-! ## The second run -/

section

variable (t : Text) (unit : IndentUnit)

theorem map_content_rows_reindent (spans : Spans) :
    (t.reindent spans unit).rows.map content = t.rows.map content := by
  rw [rows, rows, lineCount_reindent t spans unit, List.map_map, List.map_map]
  exact List.map_congr_left fun line hline => content_lineText_reindent t spans unit (List.mem_range.1 hline)

theorem opensEscaped_reindent : (t.reindent .empty unit).OpensEscaped ↔ t.content.OpensEscaped := by
  have hline := t.lineCount_pos
  have hkept := content_lineText_reindent t .empty unit hline
  rw [← opensEscaped_lineText_iff, ← opensEscaped_lineText_iff t.content, ← content_lineText_zero]
  constructor
  · intro hopens
    rwa [← hkept, hopens.content_eq]
  · intro hopens
    -- the first line is at level 0, so its content comes to stand at the start of the text
    have hlevel : levelAt? t .empty 0 = some 0 := by
      obtain ⟨rest, hrest⟩ := hopens
      have hink : (t.lineText 0).allBlank = false := by
        rw [← content_ne_nil_iff, ← hrest]
        exact List.cons_ne_nil _ _
      rw [levelAt?_empty hline, hink, ← hrest]
      rfl
    rw [lineText_reindent t .empty unit hline, reindentedRow_of_some unit hlevel]
    exact hopens

/-- **The second run** reads the text as without its leading blanks. -/
theorem sameReading_reindent : SameReading (t.reindent .empty unit) t.content where
  contents := (map_content_rows_reindent t unit .empty).trans t.map_content_rows.symm
  opens := opensEscaped_reindent t unit

/-- the second run has nothing to do exactly if every line that gets a level without the leading blanks
of the text has got it -/
theorem planReindent_reindent_eq_nil_iff : planReindent (t.reindent .empty unit) .empty unit = [] ↔
    ∀ line < t.lineCount, ∀ level, levelAt? t.content .empty line = some level →
      (t.reindent .empty unit).lineIndent line = unit.levels level := by
  have hreading := sameReading_reindent t unit
  rw [planReindent_eq_nil_iff, lineCount_reindent t .empty unit]
  refine forall₂_congr fun line hline => ?_
  rw [hreading.levelAt? (by rwa [lineCount_reindent t .empty unit])]

/-- **Reindenting is idempotent** but for an escaped quote behind blanks. -/
theorem planReindent_reindent {t : Text} (h : ¬ t.EscapedBehindBlanks) :
    planReindent (t.reindent .empty unit) .empty unit = [] := by
  have hreading : SameReading t t.content := ⟨t.map_content_rows.symm, opensEscaped_content_iff h⟩
  rw [planReindent_reindent_eq_nil_iff]
  intro line hline level hlevel
  rw [← hreading.levelAt? hline] at hlevel
  exact lineIndent_reindent t .empty unit hline hlevel

/-- after a run the first content stands at the start of the text, if it starts with a backslash -/
theorem not_escapedBehindBlanks_reindent : ¬ (t.reindent .empty unit).EscapedBehindBlanks := by
  rintro ⟨hsome, hopens⟩
  have hagain : (t.reindent .empty unit).OpensEscaped := by
    rw [opensEscaped_reindent, ← opensEscaped_lineText_iff, ← content_lineText_zero]
    rw [← opensEscaped_lineText_iff, ← content_lineText_zero,
      content_lineText_reindent t .empty unit t.lineCount_pos] at hopens
    exact hopens
  exact hsome hagain.indentation_eq

end

namespace Buffer

theorem reindent_of_plan_eq_nil {b : Buffer} {spans : Spans} (h : planReindent b.text spans unit = []) :
    b.reindent spans unit = (0, b) := by
  rw [reindent, h]
  rfl

/-- **Reindenting twice**, without comments and strings. Unless the text is blanks followed by a backslash and a
quote, the second run has an empty plan and changes nothing. In general it has nothing to do exactly if every line to
which the text without its leading blanks gives a level has got the blanks of that level in the first run. A third run
never has anything to do. -/
theorem reindent_is_idempotent (b : Buffer) (unit : IndentUnit) :
    let once := (b.reindent .empty unit).2
    let twice := (once.reindent .empty unit).2
    (¬ b.text.EscapedBehindBlanks → planReindent once.text .empty unit = [] ∧ once.reindent .empty unit = (0, once)) ∧
      (once.reindent .empty unit = (0, once) ↔ ∀ line < b.text.lineCount, ∀ level,
        levelAt? b.text.content .empty line = some level → once.text.lineIndent line = unit.levels level) ∧
      twice.reindent .empty unit = (0, twice) := by
  intro once twice
  have honce : once.text = b.text.reindent .empty unit := b.reindent_text _ _
  have htwice : twice.text = once.text.reindent .empty unit := once.reindent_text _ _
  refine ⟨fun h => ?_, ?_, ?_⟩
  · have hplan : planReindent once.text .empty unit = [] := by
      rw [honce]
      exact planReindent_reindent unit h
    exact ⟨hplan, reindent_of_plan_eq_nil hplan⟩
  · have hiff := planReindent_reindent_eq_nil_iff b.text unit
    rw [← honce] at hiff
    refine Iff.trans ⟨fun h => ?_, reindent_of_plan_eq_nil⟩ hiff
    exact List.length_eq_zero_iff.1 (congrArg Prod.fst h)
  · refine reindent_of_plan_eq_nil ?_
    have hsettled : ¬ once.text.EscapedBehindBlanks := by
      rw [honce]
      exact not_escapedBehindBlanks_reindent b.text unit
    rw [htwice]
    exact planReindent_reindent unit hsettled

/-- a block, a head with its statement and an escaped quote behind a letter: one run is enough -/
theorem block_is_settled_after_one_run :
    let b := ofText "a\\' \x7b\nif (b)\n\tc;\n \x7d".toList
    let once := (b.reindent .empty .default).2
    ¬ b.text.EscapedBehindBlanks ∧
      once.text = "a\\' \x7b\n  if (b)\n    c;\n\x7d".toList ∧ once.reindent .empty .default = (0, once) := by
  intro b once
  have hplain : ¬ b.text.EscapedBehindBlanks := by decide
  have htext : once.text = "a\\' \x7b\n  if (b)\n    c;\n\x7d".toList := by
    unfold once b
    decide +kernel
  exact ⟨hplain, htext, ((reindent_is_idempotent b .default).1 hplain).2⟩

/-- **Behind a blank the quote is escaped**, so the brace counts and the next line goes in. Without the blank,
which the first run takes away, the quote opens a quotation, the brace does not count, and the second run takes
the next line out again. -/
theorem escaped_quote_is_reindented_again :
    let b := ofText " \\'\x7b\nx".toList
    let once := (b.reindent .empty .default).2
    let twice := (once.reindent .empty .default).2
    once.text = "\\'\x7b\n  x".toList ∧ (once.reindent .empty .default).1 = 1 ∧ twice.text = "\\'\x7b\nx".toList ∧
      planReindent once.text .empty .default ≠ [] := by
  intro b once twice
  have htext : once.text = "\\'\x7b\n  x".toList := by
    unfold once b
    decide +kernel
  have hcount : (once.reindent .empty .default).1 = 1 := by
    unfold once b
    decide +kernel
  have hagain : twice.text = "\\'\x7b\nx".toList := by
    unfold twice once b
    decide +kernel
  refine ⟨htext, hcount, hagain, fun hplan => ?_⟩
  rw [reindent_of_plan_eq_nil hplan] at hcount
  cases hcount

end Buffer

end CodeEditor
