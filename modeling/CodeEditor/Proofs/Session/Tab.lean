import CodeEditor.Proofs.Buffer.LineByLine
import CodeEditor.Proofs.Indent.Reindent
import CodeEditor.Proofs.Keys.Unindent
import CodeEditor.Proofs.Session.Keys
import CodeEditor.Proofs.Session.Run
/-!
Tab over a selection, and Tab with Shift behind it.

Tab puts one unit in front of every selected line, empty ones too, and pushes the marks on (`indentLines_moment`). The
selection covers the same lines then (`selectedLines_of_extends`), each of them starts with a unit, so a unit is what
Tab with Shift takes away from each, and none of them melts: without its unit it is the line it was.
-/

namespace CodeEditor

namespace Buffer

variable {b c : Buffer} {unit : IndentUnit}

theorem inIndent_of_selected {line : Nat} (h : line ∈ b.selectedLines) : b.text.InIndent 0 line :=
  ⟨lt_lineCount_of_selected h, Nat.zero_le _⟩

/-- **Tab over a selection** puts one unit in front of every selected line. -/
theorem indentLines_moment (hsel : b.hasSelection = true) (wholeLine : Bool) :
    (b.indentLines unit wholeLine).moment = b.moment.putInAll 0 unit.text b.selectedLines := by
  have hlines : b.indentLines unit wholeLine =
      b.selectedLines.foldl (fun b line => b.insert (b.text.lineStart line + 0) unit.text) b := by
    simp [indentLines, hsel, indentLine]
  rw [hlines]
  exact foldl_insert_moment (Text.unbroken_of_allBlank (unit.allBlank_text))
    (b.selectedLines_pairwise.imp Nat.ne_of_lt) b fun _ => inIndent_of_selected

/-- **The selection covers the same lines**, also where it ends at the start of a line. -/
theorem selectedLines_of_extends {u : Text} {push : Nat → Nat} (hc : b.text.Extends c.text 0 u b.selectedLines push)
    (hmarks : c.marks = b.marks.map push) : c.selectedLines = b.selectedLines := by
  have hstart := selectionStart_of_push hmarks hc.strictMono.monotone
  have hend := selectionEnd_of_push hmarks hc.strictMono.monotone
  have hsel := hasSelection_of_push hmarks hc.strictMono
  conv_lhs => rw [selectedLines]
  simp only [hstart, hend, hsel, hc.lineOf]
  conv_rhs => rw [selectedLines]
  refine List.filter_congr fun line hline => ?_
  cases hb : b.hasSelection with
  | false => rfl
  | true =>
    have hlast := b.text.lineOf_lt b.selectionEnd
    have hmem := hline
    rw [List.mem_range'_1] at hmem
    have hlt : line < b.text.lineCount := by omega
    have hiff : c.text.lineStart line = push b.selectionEnd ↔ b.text.lineStart line = b.selectionEnd := by
      constructor
      · intro heq
        by_contra hne
        have hle := (Text.lineStart_le_iff hlt).2 (show line ≤ b.text.lineOf b.selectionEnd by omega)
        have hpush := hc.strictMono (lt_of_le_of_ne hle hne)
        exact absurd (hc.lineStart_le hlt) (by omega)
      · intro heq
        have hnot : line ∉ b.selectedLines := by
          intro hsel
          have hne := (List.mem_filter.1 hsel).2
          simp [hb, heq] at hne
        rw [hc.lineStart line hlt hnot, heq]
    rw [Bool.not_true, Bool.false_or, Bool.false_or, Bool.eq_iff_iff]
    simp only [bne_iff_ne, ne_eq, hiff]

/-- Tab with Shift takes one unit out of a line that it was put in front of -/
theorem takesOut_unindentLine :
    TakesOut 0 unit.text fun b line => b.unindentLine unit.width line := by
  intro b m line hline hb
  have htext : b.text = m.text.putIn 0 unit.text line := congrArg Moment.text hb
  have hstart : b.text.lineStart line = m.text.lineStart line := by
    rw [htext, hline.lineStart_putIn_of_le (Text.unbroken_of_allBlank (unit.allBlank_text)) le_rfl]
  simp only [unindentLine, hstart, ← unit.length_text]
  exact erase_moment (m.text.lineStart_le_length line) hb

/-- **Tab with Shift takes back what Tab did**: text and marks are as they were. -/
theorem unindentLines_indentLines (hsel : b.hasSelection = true) (wholeLine : Bool)
    (hc : c.moment = (b.indentLines unit wholeLine).moment) : (c.unindentLines unit).moment = b.moment := by
  have hblank := unit.allBlank_text
  have hbreak := Text.unbroken_of_allBlank hblank
  have hwidth := unit.pos
  rw [indentLines_moment hsel] at hc
  obtain ⟨push, hextends, hmarks⟩ := Moment.extends_putInAll hbreak (b.selectedLines_pairwise.imp Nat.ne_of_lt) b.moment
    fun _ => inIndent_of_selected
  have htext : c.text = (b.moment.putInAll 0 unit.text b.selectedLines).text := congrArg Moment.text hc
  have hcmarks : c.marks = b.marks.map push := (congrArg Moment.marks hc).trans hmarks
  rw [← htext] at hextends
  have hlines := selectedLines_of_extends hextends hcmarks
  have hrow : ∀ line ∈ b.selectedLines, c.text.lineText line = unit.text ++ b.text.lineText line := fun line hline => by
    rw [hextends.lineText line (lt_lineCount_of_selected hline), if_pos hline]
    rfl
  have hlt : ∀ line ∈ b.selectedLines, line < c.text.lineCount := fun line hline => by
    rw [hextends.lineCount]
    exact lt_lineCount_of_selected hline
  have hall : c.unindentable = b.selectedLines := by
    rw [unindentable, hlines]
    refine List.filter_eq_self.2 fun line hline => ?_
    have hend := Text.length_lineText (hlt line hline)
    rw [hrow line hline, List.length_append, unit.length_text] at hend
    rw [bne_iff_ne]
    omega
  have hunindent : c.unindentWidth unit = unit.width := by
    refine (c.isLeast_unindentWidth unit).unique ⟨.inl rfl, ?_⟩
    rintro k (rfl | ⟨line, hline, rfl⟩)
    · exact Nat.le_refl _
    · rw [hall] at hline
      rw [Text.lineIndent_eq (hlt line hline), hrow line hline, Text.indentation_append hblank, List.length_append,
        unit.length_text]
      exact Nat.le_add_right _ _
  rw [unindentLines, hunindent, if_neg (by omega), hall]
  exact takesOut_unindentLine.foldl_moment hbreak b.selectedLines_pairwise (fun _ => inIndent_of_selected) c hc

end Buffer

namespace Session

theorem pressKey_tab (s : Session) {key : Key} (hkey : key = .tab ∨ key = .backTab) (mods : Modifiers) :
    s.pressKey key mods = s.sync.grouped (s.sync.tabEffect key mods) := by
  rw [pressKey, handleKey_tab s hkey]

/-- what Tab with Shift does, in a group of its own -/
theorem unindent_buffer (s : Session) {key : Key} {mods : Modifiers} (h : key.isUnindent mods = true) :
    (s.pressKey key mods).buffer = (s.buffer.openGroup.unindentLines s.unit).closeGroup := by
  have hkey : key = .tab ∨ key = .backTab := by
    cases key <;> simp_all [Key.isUnindent]
  have heffect : s.sync.tabEffect key mods = fun b => b.unindentLines s.unit := by
    funext b
    rw [tabEffect, if_pos h, sync_unit]
  rw [pressKey_tab s hkey, heffect, grouped, mapBuffer, sync_buffer]
  rfl

/-- what Tab with Shift does to text and marks -/
theorem unindent_moment (s : Session) {key : Key} {mods : Modifiers} (h : key.isUnindent mods = true) :
    (s.pressKey key mods).buffer.moment = (s.buffer.openGroup.unindentLines s.unit).moment := by
  rw [s.unindent_buffer h]
  rfl

/-- what Tab does to text and marks -/
theorem indent_moment (s : Session) {mods : Modifiers} (h : Key.isUnindent .tab mods = false) :
    (s.pressKey .tab mods).buffer.moment = (s.buffer.openGroup.indentLines s.unit s.sync.config.tabIndentsLine).moment ∧
      (s.pressKey .tab mods).unit = s.unit := by
  have heffect : s.sync.tabEffect .tab mods = fun b => b.indentLines s.unit s.sync.config.tabIndentsLine := by
    funext b
    rw [tabEffect, if_neg (by rw [h]; decide), sync_unit]
  rw [pressKey_tab s (Or.inl rfl), heffect, grouped, mapBuffer, sync_buffer]
  exact ⟨rfl, s.sync_unit⟩

/-- **Tab with Shift takes Tab back.** Over every selection, in either direction, Tab and then Tab with Shift bring back
the text and both marks, whatever the selected lines are: empty, blank, or indented less than a unit. -/
theorem unindent_takes_tab_back (s : Session) (hsel : s.buffer.hasSelection = true) {mods mods' : Modifiers}
    {key : Key} (htab : Key.isUnindent .tab mods = false) (hback : key.isUnindent mods' = true) :
    let s' := (s.pressKey .tab mods).pressKey key mods'
    s'.text = s.text ∧ s'.buffer.marks = s.buffer.marks := by
  intro s'
  obtain ⟨hindent, hunit⟩ := s.indent_moment htab
  have hunindent := (s.pressKey .tab mods).unindent_moment hback
  have hrestored := Buffer.unindentLines_indentLines (b := s.buffer.openGroup)
    (c := (s.pressKey .tab mods).buffer.openGroup)
    hsel s.sync.config.tabIndentsLine hindent
  rw [hunit, hrestored] at hunindent
  exact ⟨congrArg Moment.text hunindent, congrArg Moment.marks hunindent⟩

/-- an empty line, a blank one and an indented one, selected backwards from the start of the line behind them -/
theorem unindent_takes_tab_back_over_four_lines :
    let s := (ofText "a\n\n \n  b\nc".toList (.ofId none) .default).run [.setUnit ' ' 4, .buffer (.select 1 9)]
    let shift : Modifiers := { Modifiers.none with shift := true }
    (s.buffer.hasSelection = true ∧ Key.isUnindent .tab .none = false ∧ Key.isUnindent .tab shift = true) ∧
      (s.pressKey .tab .none).text = "    a\n    \n     \n      b\nc".toList ∧
      let s' := (s.pressKey .tab .none).pressKey .tab shift
      s'.text = s.text ∧ s'.buffer.marks = s.buffer.marks := by
  intro s shift
  have hsel : s.buffer.hasSelection = true := by decide
  have htab : Key.isUnindent .tab .none = false := by decide
  have hback : Key.isUnindent .tab shift = true := by decide
  have htext : (s.pressKey .tab .none).text = "    a\n    \n     \n      b\nc".toList := by decide
  have hrestored := unindent_takes_tab_back s hsel htab hback
  exact ⟨⟨hsel, htab, hback⟩, htext, hrestored⟩

end Session

end CodeEditor
