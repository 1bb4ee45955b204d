import CodeEditor.Proofs.Buffer.Cursor
import CodeEditor.Proofs.Keys.Ink
import CodeEditor.Proofs.Text.Columns
import CodeEditor.Proofs.Text.Rows
/-!
What Enter does to the breaks of a text.

Every plan of Enter starts with an LF and blanks. Behind an opening brace it goes on with a second LF, and the cursor
moves back before that; a label may lose blanks of its own line before (`EnterPlan.opensLine_make`). The blanks around
the cursor hold no breaks. So whatever is planned, the line is broken at the cursor, and no break of the text goes
(`Buffer.breaksLine_bracketEnter`).
-/

namespace CodeEditor

namespace Text

/-! ## Breaks -/

/-- the characters that end lines -/
def breaks (t : Text) : Text :=
  t.filter isBreak

@[simp] theorem breaks_append (t u : Text) : breaks (t ++ u) = breaks t ++ breaks u :=
  List.filter_append t u

theorem breaks_of_unbroken {t : Text} (h : ∀ c ∈ t, isBreak c = false) : t.breaks = [] :=
  List.filter_eq_nil_iff.2 fun c hc => by simp [h c hc]

theorem breaks_of_allBlank {t : Text} (h : t.allBlank = true) : t.breaks = [] :=
  breaks_of_unbroken (unbroken_of_allBlank h)

/-- a stretch of blanks does not show in the breaks before it -/
theorem breaks_take {t : Text} {x y : Nat} (hxy : x ≤ y) (h : (t.slice x y).allBlank = true) :
    breaks (t.take x) = breaks (t.take y) := by
  have hcut : t.take y = t.take x ++ t.slice x y := (t.slice_append (Nat.zero_le x) hxy).symm
  rw [hcut, breaks_append, breaks_of_allBlank h, List.append_nil]

/-- nor in those behind it -/
theorem breaks_drop {t : Text} {x y : Nat} (hxy : x ≤ y) (h : (t.slice x y).allBlank = true) :
    breaks (t.drop y) = breaks (t.drop x) := by
  obtain ⟨n, rfl⟩ := Nat.exists_eq_add_of_le hxy
  rw [t.drop_eq_slice_append x n, breaks_append, breaks_of_allBlank h, List.nil_append]

/-- a line that is not the first one stands behind a break -/
theorem isBreak_before_lineStart {t : Text} {line : Nat} (h : 0 < t.lineStart line) :
    isBreak (t.charAt (t.lineStart line - 1)) = true := by
  have hclamp : t.clampLine line < t.lineCount :=
    Nat.lt_of_le_of_lt (Nat.min_le_right _ _) (Nat.sub_one_lt (Nat.succ_ne_zero _))
  rw [← lineStart_clampLine] at h ⊢
  cases hline : t.clampLine line with
  | zero =>
    rw [hline, lineStart_zero] at h
    exact absurd h (Nat.lt_irrefl 0)
  | succ k =>
    have hk : k < t.breakEnds.length := by rw [lineCount] at hclamp; omega
    rw [lineStart_succ hk]
    exact (isBreakEnd_of_mem (List.getElem_mem hk)).isBreak

end Text

/-! ## Plans -/

namespace EnterPlan

/-- the plan opens a line of blanks at the cursor. It may open another one behind that if a brace stands before the
cursor, and it may take blanks of the line before the cursor away -/
inductive OpensLine (t : Text) (cursor : Nat) : EnterPlan → Prop where
  | line {indent : Text} (blank : indent.allBlank = true) : OpensLine t cursor (newline indent)
  | block {u indent w : Text} {back : Nat} (brace : 0 < cursor ∧ t.charAt (cursor - 1) = '{')
      (blank : indent.allBlank = true) (unbroken : w.breaks = []) (text : u = ('\n' :: indent) ++ ('\n' :: w))
      (moved : back = ('\n' :: w).length) :
      OpensLine t cursor (.insert u back)
  | label {start stop : Nat} {indent : Text} (le : start ≤ stop) (before : stop ≤ cursor)
      (removed : (t.slice start stop).allBlank = true) (blank : indent.allBlank = true) :
      OpensLine t cursor (.dedent start stop ('\n' :: indent))

variable {t : Text} {c : EnterContext} {cursor : Nat} {indent : Text}

theorem opensLine_afterBrace (hindent : indent.allBlank = true) (statement : Nat)
    (hbrace : 0 < cursor ∧ t.charAt (cursor - 1) = '{') :
    (afterBrace t c cursor statement indent).OpensLine t cursor := by
  have hinner : (indent ++ c.unit.text).allBlank = true := Text.allBlank_append hindent c.unit.allBlank_text
  have hunbroken : ∀ closer ∈ closers, Text.breaks (indent ++ closer) = [] := by
    intro closer hcloser
    have hnone : ∀ closer ∈ closers, Text.breaks closer = [] := by decide
    rw [Text.breaks_append, Text.breaks_of_allBlank hindent, hnone closer hcloser]
    rfl
  unfold afterBrace
  dsimp only
  split_ifs
  · exact .block hbrace hinner (hunbroken [] (by decide)) (by simp) (by simp)
  · exact .line hinner
  · exact .block hbrace hinner (hunbroken ['}', ';'] (by decide)) (by simp) (by simp)
  · exact .block hbrace hinner (hunbroken ['}'] (by decide)) (by simp) (by simp)

theorem opensLine_alignTo (bracket : Nat) : (alignTo t bracket).OpensLine t cursor :=
  .line (Text.allBlank_append (Text.allBlank_indentation _) (Text.allBlank_replicate rfl _))

theorem opensLine_afterHeadless? {line : Nat} {plan : EnterPlan} (h : afterHeadless? t c line indent = some plan) :
    plan.OpensLine t cursor := by
  unfold afterHeadless? at h
  dsimp only at h
  split_ifs at h
  cases h
  exact .line (Text.allBlank_indentation _)

/-- what a label moves out over are blanks, so it lies before the label -/
theorem label_stands_behind {width : Nat} (hlabel : t.charAt (cursor - 1) = ':')
    (hblank : (t.slice (t.lineStart (t.lineOf cursor)) (t.lineStart (t.lineOf cursor) + width)).allBlank = true) :
    t.lineStart (t.lineOf cursor) + width ≤ cursor := by
  set start := t.lineStart (t.lineOf cursor) with hstart
  have hle : start ≤ cursor := t.lineStart_lineOf_le cursor
  by_contra hlt
  by_cases hbefore : start ≤ cursor - 1
  · -- the label would be one of the blanks
    have hin : cursor - 1 < t.length := Text.lt_length_of_charAt (by rw [hlabel]; decide)
    have hoffset : start + (cursor - 1 - start) = cursor - 1 := by omega
    have hchar := t.charAt_slice (show cursor - 1 - start < start + width - start by omega)
    rw [hoffset, hlabel] at hchar
    have hmem : ':' ∈ t.slice start (start + width) := by
      have hlen : cursor - 1 - start < (t.slice start (start + width)).length :=
        Text.lt_length_of_charAt (by rw [hchar]; decide)
      rw [Text.charAt_eq_getElem _ hlen] at hchar
      exact hchar ▸ List.getElem_mem hlen
    exact absurd (List.all_eq_true.1 hblank _ hmem) (by decide)
  · -- or the break before the line
    have hpos : 0 < start := by omega
    have hbreak := Text.isBreak_before_lineStart hpos
    have hsame : start - 1 = cursor - 1 := by omega
    rw [← hstart, hsame, hlabel] at hbreak
    exact absurd hbreak (by decide)

theorem opensLine_afterLabel? (hindent : indent.allBlank = true) (hlabel : t.charAt (cursor - 1) = ':')
    {plan : EnterPlan} (h : afterLabel? t c cursor indent = some plan) : plan.OpensLine t cursor := by
  unfold afterLabel? at h
  split at h
  · cases h
  · dsimp only at h
    split_ifs at h with hlevel hblank
    · cases h
      exact .line (Text.allBlank_append hindent c.unit.allBlank_text)
    · cases h
      exact .label (Nat.le_add_right _ _) (label_stands_behind hlabel hblank) hblank hindent

/-- **Every plan opens a line of blanks**, whatever the spans say. -/
theorem opensLine_make (t : Text) (c : EnterContext) (cursor : Nat) :
    (make t c cursor).OpensLine t cursor := by
  have hindent : ∀ line, (t.lineIndent line).allBlank = true := fun line => Text.allBlank_indentation _
  unfold make
  dsimp only
  split
  · next hbrace =>
    rw [Bool.and_eq_true, decide_eq_true_eq, decide_eq_true_eq] at hbrace
    exact opensLine_afterBrace (hindent _) _ hbrace.symm
  split
  · exact opensLine_alignTo _
  split
  · exact .line (Text.allBlank_append (hindent _) c.unit.allBlank_text)
  -- a special line, or else a plain new one
  cases hspecial : (if t.charAt (cursor - 1) = ';' then
      afterHeadless? t c (t.lineOf cursor) (t.lineIndent (t.lineOf (statementStart t c.spans c.unit.ch cursor)))
    else if t.charAt (cursor - 1) = ':' then
      afterLabel? t c cursor (t.lineIndent (t.lineOf (statementStart t c.spans c.unit.ch cursor))) else none) with
  | none => exact .line (hindent _)
  | some plan =>
    split_ifs at hspecial with hsemicolon hlabel
    · exact opensLine_afterHeadless? hspecial
    · exact opensLine_afterLabel? (hindent _) hlabel hspecial

end EnterPlan

/-! ## Buffers -/

namespace Buffer

variable {b c : Buffer} {before behind : Text}

/-- a removal before the cursor -/
theorem At.erase (h : b.At before behind) {x y : Nat} (hxy : x ≤ y) (hy : y ≤ before.length) :
    (b.erase x y).At (before.take x ++ before.drop y) behind := by
  have hlen : b.length = before.length + behind.length := by rw [length, h.text, List.length_append]
  have hx : b.clamp x = x := min_eq_left (by omega)
  have hy' : b.clamp y = y := min_eq_left (by omega)
  refine ⟨?_, ?_⟩
  · rw [erase_text b hxy, h.text, List.take_append_of_le_length (hxy.trans hy), List.drop_append_of_le_length hy,
      List.append_assoc]
  · have hlength : (before.take x ++ before.drop y).length = before.length - (y - x) := by
      rw [List.length_append, List.length_take, List.length_drop]
      omega
    have hslice : (b.text.slice x y).length = y - x := Text.length_slice _ (by rw [length] at hlen; omega)
    have hshift : Edit.shift ⟨x, b.text.slice x y, []⟩ before.length = before.length - (y - x) := by
      simp only [Edit.shift, hslice, List.length_nil]
      split_ifs <;> omega
    rw [hlength]
    simp only [Buffer.erase, min_eq_left hxy, max_eq_right hxy, hx, hy']
    split_ifs with heq
    · rw [h.marks, heq, Nat.sub_self, Nat.sub_zero]
    · rw [edit_marks, h.marks, Marks.map, Marks.both, hshift]
      rfl

/-- the line is broken at the cursor: an LF comes in and blanks behind it, with the cursor behind them. On both sides
all breaks stay, and `more` come in behind the cursor -/
def BreaksLine (b : Buffer) (more : Text) (c : Buffer) : Prop :=
  ∃ before indent behind : Text, c.At (before ++ '\n' :: indent) behind ∧ indent.allBlank = true ∧
    before.breaks = Text.breaks (b.text.take b.cursor) ∧ behind.breaks = more ++ Text.breaks (b.text.drop b.cursor)

theorem breaksLine_insertAtCursor (h : b.At before behind) {indent : Text} (hindent : indent.allBlank = true) :
    b.BreaksLine [] (b.insertAtCursor ('\n' :: indent)) := by
  refine ⟨before, indent, behind, h.insertAtCursor _, hindent, ?_, ?_⟩
  · rw [h.text, h.cursor, List.take_left]
  · rw [h.text, h.cursor, List.drop_left, List.nil_append]

/-- a plan that opens a line breaks the line of the cursor -/
theorem breaksLine_apply (h : b.At before behind) {plan : EnterPlan} (hplan : plan.OpensLine b.text b.cursor) :
    b.BreaksLine [] (plan.apply b) ∨ b.BreaksLine ['\n'] (plan.apply b) ∧ 0 < b.cursor ∧
    b.text.charAt (b.cursor - 1) = '{' := by
  have htake : b.text.take b.cursor = before := by rw [h.text, h.cursor, List.take_left]
  have hdrop : b.text.drop b.cursor = behind := by rw [h.text, h.cursor, List.drop_left]
  cases hplan with
  | @line indent hblank =>
    have hat := h.apply_insert (u := '\n' :: indent) (w := [])
    rw [List.append_nil, List.nil_append] at hat
    exact .inl ⟨before, indent, behind, hat, hblank, by rw [htake], by rw [hdrop, List.nil_append]⟩
  | @block u indent w back hbrace hblank hunbroken htext hmoved =>
    subst htext hmoved
    refine .inr ⟨⟨before, indent, _, h.apply_insert, hblank, by rw [htake], ?_⟩, hbrace⟩
    have hbreaks : Text.breaks ('\n' :: w) = ['\n'] := congrArg (List.cons '\n') hunbroken
    rw [hdrop, Text.breaks_append, hbreaks]
  | @label start stop indent hle hbefore hremoved hblank =>
    rw [h.cursor] at hbefore
    have hat := (h.erase hle hbefore).insertAtCursor ('\n' :: indent)
    refine .inl ⟨before.take start ++ before.drop stop, indent, behind, hat, hblank, ?_, by rw [hdrop, List.nil_append]⟩
    -- the blanks that went hold no breaks
    have hslice : (before.slice start stop).allBlank = true := by
      rwa [h.text, Text.slice_append_left _ _ hbefore] at hremoved
    rw [htake, Text.breaks_append, Text.breaks_take hle hslice, ← Text.breaks_append, List.take_append_drop]

/-- the blanks around the cursor go, and no break with them -/
theorem breaks_trimAroundCursor (hb : b.Within) (hsel : b.hasSelection = false) :
    Text.breaks (b.trimAroundCursor.text.take b.trimAroundCursor.cursor) = Text.breaks (b.text.take b.cursor) ∧
      Text.breaks (b.trimAroundCursor.text.drop b.trimAroundCursor.cursor) = Text.breaks (b.text.drop b.cursor) := by
  obtain ⟨hbefore, hbehind⟩ := Text.allBlank_blanksAround hb.1
  obtain ⟨hstart, hstop, -⟩ := Text.blanksAround_bounds hb.1
  have hat := (at_cursor hb hsel).trimmed
  have hlen : (b.text.take b.cursor).length = b.cursor := List.length_take_of_le hb.1
  rw [List.take_append_drop, hlen] at hat
  rw [hat.text, hat.cursor, List.take_left, List.drop_left]
  exact ⟨Text.breaks_take hstart hbefore, Text.breaks_drop hstop hbehind⟩

theorem BreaksLine.of_trimmed (hb : b.Within) (hsel : b.hasSelection = false) {more : Text}
    (h : b.trimAroundCursor.BreaksLine more c) :
    b.BreaksLine more c := by
  obtain ⟨before, indent, behind, hat, hblank, hbefore, hbehind⟩ := h
  obtain ⟨htake, hdrop⟩ := breaks_trimAroundCursor hb hsel
  exact ⟨before, indent, behind, hat, hblank, hbefore.trans htake, by rw [hbehind, hdrop]⟩

theorem breaksLine_plainEnter (hb : b.Within) (hsel : b.hasSelection = false) : b.BreaksLine [] b.plainEnter := by
  refine .of_trimmed hb hsel ?_
  unfold plainEnter
  refine breaksLine_insertAtCursor (at_trimAroundCursor hb hsel) ?_
  split_ifs
  · exact Text.allBlank_indentation _
  · exact Text.allBlank_indentation _

/-- **Enter in code** breaks the line, and comes with a second break only behind a brace. -/
theorem breaksLine_bracketEnter (hb : b.Within) (hsel : b.hasSelection = false) (context : EnterContext) :
    let trimmed := b.trimAroundCursor
    b.BreaksLine [] (b.bracketEnter context) ∨
      b.BreaksLine ['\n'] (b.bracketEnter context) ∧ 0 < trimmed.cursor ∧
      trimmed.text.charAt (trimmed.cursor - 1) = '{' := by
  intro trimmed
  have hplan := EnterPlan.opensLine_make trimmed.text context trimmed.cursor
  rcases breaksLine_apply (at_trimAroundCursor hb hsel) hplan with hone | ⟨htwo, hbrace⟩
  · exact .inl (.of_trimmed hb hsel hone)
  · exact .inr ⟨.of_trimmed hb hsel htwo, hbrace⟩

end Buffer

end CodeEditor
