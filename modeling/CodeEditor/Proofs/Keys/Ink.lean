import CodeEditor.Keys.Brace
import CodeEditor.Keys.Default
import CodeEditor.Keys.Deletion
import CodeEditor.Proofs.Buffer.Handlers
import CodeEditor.Proofs.Text.Ink
/-!
What the keys do to the ink of a text.

A buffer *keeps its ink* if what is visible before the cursor stays before it and what is visible behind it stays behind
(`KeepsInk`). Every removal of a stretch without ink does so, wherever the cursor is, and so does every insertion of one
(`keepsInk_erase`, `keepsInk_insert`); each handler is a few of those, and at most one text typed at the cursor.
-/

namespace CodeEditor

/-- more than no blank: an indent unit that is made of blanks adds no ink -/
theorem IndentUnit.ink_text (unit : IndentUnit) : unit.text.ink = [] :=
  Text.ink_of_allBlank unit.allBlank_text

namespace Buffer

/-- the ink before the cursor -/
def inkBefore (b : Buffer) : Text :=
  Text.ink (b.text.take b.cursor)

/-- the ink behind the cursor -/
def inkBehind (b : Buffer) : Text :=
  Text.ink (b.text.drop b.cursor)

/-- the ink on both sides of the cursor stays there -/
structure KeepsInk (b c : Buffer) : Prop where
  before : c.inkBefore = b.inkBefore
  behind : c.inkBehind = b.inkBehind

/-- of ink, `u` comes in at the cursor's place and the rest stays -/
def PutsInk (b : Buffer) (u : Text) (c : Buffer) : Prop :=
  Text.ink c.text = b.inkBefore ++ u ++ b.inkBehind

theorem ink_text (b : Buffer) : Text.ink b.text = b.inkBefore ++ b.inkBehind :=
  (Text.ink_take_append_drop _ _).symm

namespace KeepsInk

variable {b c d : Buffer} {u : Text}

theorem refl (b : Buffer) : b.KeepsInk b :=
  ⟨rfl, rfl⟩

theorem trans (h : b.KeepsInk c) (h' : c.KeepsInk d) : b.KeepsInk d :=
  ⟨h'.before.trans h.before, h'.behind.trans h.behind⟩

theorem putsInk (h : b.KeepsInk c) (h' : c.PutsInk u d) : b.PutsInk u d := by
  rw [PutsInk, ← h.before, ← h.behind]; exact h'

theorem ink_text (h : b.KeepsInk c) : Text.ink c.text = Text.ink b.text := by
  rw [c.ink_text, b.ink_text, h.before, h.behind]

theorem foldl {α : Type} {f : Buffer → α → Buffer} (hf : ∀ b x, KeepsInk b (f b x)) (xs : List α) (b : Buffer) :
    KeepsInk b (xs.foldl f b) := by
  induction xs generalizing b with
  | nil => exact refl b
  | cons x xs ih => exact (hf b x).trans (ih (f b x))

end KeepsInk

/-! ## One edit -/

/-- a stretch without ink does not show in what stands before an offset -/
theorem ink_take_skip {r : Text} (hr : r.ink = []) (a c : Text) (k : Nat) :
    Text.ink ((a ++ r ++ c).take k) = Text.ink (a.take k) ++ Text.ink (c.take (k - (a.length + r.length))) := by
  have hmid : Text.ink (r.take (k - a.length)) = [] := Text.ink_of_subset (List.take_subset _ _) hr
  rw [List.take_append, List.take_append, Text.ink_append, Text.ink_append, hmid, List.append_nil, List.length_append]

/-- nor in what stands behind it -/
theorem ink_drop_skip {r : Text} (hr : r.ink = []) (a c : Text) (k : Nat) :
    Text.ink ((a ++ r ++ c).drop k) = Text.ink (a.drop k) ++ Text.ink (c.drop (k - (a.length + r.length))) := by
  have hmid : Text.ink (r.drop (k - a.length)) = [] := Text.ink_of_subset (List.drop_subset _ _) hr
  rw [List.drop_append, List.drop_append, Text.ink_append, Text.ink_append, hmid, List.append_nil, List.length_append]

/-- **A removal or an insertion without ink** keeps the ink, wherever the cursor stands. -/
theorem keepsInk_edit {b : Buffer} {e : Edit} (he : e.Fits b.text) (hr : e.removed.ink = []) (hi : e.inserted.ink = [])
    (hpure : e.removed = [] ∨ e.inserted = []) : b.KeepsInk (b.edit e) := by
  obtain ⟨a, c, hb, ha⟩ := he
  have htext : (b.edit e).text = a ++ e.inserted ++ c := by rw [edit_text, hb, Edit.apply_append e a c ha]
  -- the cursor follows the edit: it cuts what stood before the edit as it did, and what stood behind it, too
  have hshift : ∀ k, min (e.shift k) a.length = min k a.length ∧
      e.shift k - (a.length + e.inserted.length) = k - (a.length + e.removed.length) := by
    intro k
    rcases hpure with hnil | hnil <;> simp only [Edit.shift, hnil, List.length_nil, ha] <;> split_ifs <;> omega
  obtain ⟨hleft, hright⟩ := hshift b.cursor
  obtain ⟨htake, hdrop⟩ := cut_congr hleft
  have hcursor : (b.edit e).cursor = e.shift b.cursor := rfl
  constructor
  · rw [inkBefore, inkBefore, htext, hcursor, hb, ink_take_skip hi, ink_take_skip hr, htake, hright]
  · rw [inkBehind, inkBehind, htext, hcursor, hb, ink_drop_skip hi, ink_drop_skip hr, hdrop, hright]

theorem keepsInk_insert (b : Buffer) (offset : Nat) {u : Text} (hu : u.ink = []) : b.KeepsInk (b.insert offset u) := by
  unfold insert
  split_ifs
  · exact .refl b
  · exact keepsInk_edit (fits_insertion _ _ (b.clamp_le offset)) rfl hu (Or.inl rfl)

theorem keepsInk_erase (b : Buffer) {x y : Nat} (hxy : x ≤ y) (h : (b.text.slice x y).ink = []) :
    b.KeepsInk (b.erase x y) := by
  have hcut : (b.text.slice (b.clamp x) (b.clamp y)).ink = [] := by
    rw [clamp, clamp, length, Text.slice_min _ hxy]; exact h
  have hle : b.clamp x ≤ b.clamp y := by unfold clamp; omega
  simp only [erase, min_eq_left hxy, max_eq_right hxy]
  split_ifs
  · exact .refl b
  · exact keepsInk_edit (fits_removal _ hle (b.clamp_le _)) hcut rfl (Or.inr rfl)

/-- a text typed at the cursor comes in at its place -/
theorem putsInk_insertAtCursor (b : Buffer) (u : Text) : b.PutsInk u.ink (b.insertAtCursor u) := by
  unfold insertAtCursor insert PutsInk
  split_ifs with hnil
  · rw [List.isEmpty_iff.1 hnil, Text.ink_nil, List.append_nil, b.ink_text]
  · obtain ⟨htake, hdrop⟩ : b.text.take (b.clamp b.cursor) = b.text.take b.cursor ∧
        b.text.drop (b.clamp b.cursor) = b.text.drop b.cursor :=
      cut_congr (by rw [clamp, length]; omega)
    rw [edit_text, Edit.apply, List.length_nil, Nat.add_zero, htake, hdrop, Text.ink_append, Text.ink_append]
    rfl

theorem putsInk_of_keepsInk {b c : Buffer} (h : b.KeepsInk c) : b.PutsInk [] c := by
  rw [PutsInk, h.ink_text, b.ink_text, List.append_nil]

/-! ## Tab and deletion -/

theorem keepsInk_indentLines (b : Buffer) (unit : IndentUnit) (wholeLine : Bool) :
    b.KeepsInk (b.indentLines unit wholeLine) := by
  simp only [indentLines]
  split_ifs
  · exact keepsInk_insert b _ unit.ink_text
  · exact keepsInk_insert b _ (Text.ink_neighbourIndent _ _)
  · exact .foldl (fun b _ => keepsInk_insert b _ unit.ink_text) _ b

theorem keepsInk_smartBackspace (b : Buffer) : b.KeepsInk b.smartBackspace.2 := by
  simp only [smartBackspace]
  split_ifs with h
  · exact .refl b
  · have hblank : (b.text.slice (b.text.lineStart b.cursorLine) b.cursor).allBlank = true := by
      simp only [Bool.or_eq_true, not_or, Bool.not_eq_eq_eq_not, Bool.not_true, Bool.not_eq_false] at h
      exact h.2
    exact keepsInk_erase b (b.text.lineStart_lineOf_le _) (Text.ink_of_allBlank hblank)

/-- blanks up to the end of a line, its break, then blanks of the next line -/
theorem keepsInk_erase_lineEnd {b : Buffer} {line n : Nat}
    (hblank : (b.text.slice b.cursor (b.text.lineEnd line)).allBlank = true) (hcursor : b.cursor ≤ b.text.lineEnd line)
    (hlen : b.text.lineEnd line + 1 < b.length)
    (hn : n ≤ ((b.text.drop (b.text.lineEnd line + 1)).takeWhile isBlank).length) :
    b.KeepsInk (b.erase b.cursor (b.text.lineEnd line + 1 + n)) := by
  have hbreak := Text.ink_slice_lineEnd (show b.text.lineEnd line < b.text.length by rw [length] at hlen; omega)
  have hnext := Text.ink_of_allBlank (Text.allBlank_slice_of_le_takeWhile hn)
  refine keepsInk_erase b (by omega) ?_
  rw [← Text.slice_append _ hcursor (by omega), ← Text.slice_append _ (Nat.le_succ (b.text.lineEnd line)) (by omega),
    Text.ink_append, Text.ink_append, Text.ink_of_allBlank hblank, hbreak, hnext]
  rfl

theorem keepsInk_smartDelete {b : Buffer} (hb : b.Within) : b.KeepsInk b.smartDelete.2 := by
  have hcursor : b.cursor ≤ b.text.lineEnd b.cursorLine := Text.le_lineEnd_lineOf hb.1
  simp only [smartDelete]
  split_ifs with h hstart
  · exact .refl b
  all_goals
    simp only [Bool.or_eq_true, Bool.not_eq_eq_eq_not, Bool.not_true, decide_eq_true_eq, not_or, Bool.not_eq_false,
      not_le] at h
  · exact keepsInk_erase_lineEnd (n := 0) h.1 hcursor h.2 (Nat.zero_le _)
  · exact keepsInk_erase_lineEnd h.1 hcursor h.2 le_rfl

/-! ## Braces -/

theorem putsInk_closeBrace (b : Buffer) (unit : IndentUnit) :
    b.PutsInk ['}'] (b.closeBrace unit) := by
  simp only [closeBrace]
  split_ifs with h
  · obtain ⟨hwidth, hmakes⟩ : unit.width ≤ (b.text.slice (b.text.lineStart b.cursorLine) b.cursor).length ∧
        unit.makesUp (b.text.slice (b.text.lineStart b.cursorLine) b.cursor) = true := by
      simpa only [Bool.and_eq_true, decide_eq_true_eq] using h
    have hstop : b.text.lineStart b.cursorLine + unit.width ≤ b.cursor := by
      have hle := b.text.length_slice_le (b.text.lineStart b.cursorLine) b.cursor
      have hstart := b.text.lineStart_lineOf_le b.cursor
      rw [cursorLine] at hwidth hle ⊢
      omega
    have hblank : (b.text.slice (b.text.lineStart b.cursorLine) b.cursor).allBlank = true := by
      refine List.all_eq_true.2 fun c hc => ?_
      have := List.all_eq_true.1 hmakes c hc
      rw [beq_iff_eq.1 this]; exact unit.blank
    have herase := keepsInk_erase b (Nat.le_add_right _ unit.width)
      (Text.ink_of_subset (Text.slice_prefix b.text _ hstop).subset (Text.ink_of_allBlank hblank))
    exact herase.putsInk (putsInk_insertAtCursor _ ['}'])
  · exact putsInk_insertAtCursor b ['}']

theorem putsInk_openBrace {b : Buffer} {unit : IndentUnit} (h : (b.openBrace unit).1 = true) :
    b.PutsInk ['{'] (b.openBrace unit).2 := by
  unfold openBrace at h ⊢
  split_ifs at h ⊢ with hunder
  obtain ⟨hwidth, hcursor⟩ : unit.width ≤ (b.text.lineIndent b.cursorLine).length ∧
      b.cursor = b.text.lineIndentEnd b.cursorLine := by
    simp only [isUnderHead, Bool.and_eq_true, decide_eq_true_eq, beq_iff_eq] at hunder
    exact ⟨hunder.1.1.1.2, hunder.1.1.2⟩
  have hblank := Text.allBlank_slice_lineIndentEnd b.text hwidth
  rw [← hcursor] at hblank
  have herase := keepsInk_erase b (Nat.sub_le b.cursor unit.width) (Text.ink_of_allBlank hblank)
  exact herase.putsInk (putsInk_insertAtCursor _ ['{'])

end Buffer

/-! ## Enter -/

/-- the ink that Enter may put in: a closing brace, with a semicolon behind a record -/
def closers : List Text :=
  [[], ['}'], ['}', ';']]

namespace EnterPlan

/-- the plan takes no ink away, and puts in a closing brace at most -/
inductive Harmless (t : Text) : EnterPlan → Prop where
  | insert {u : Text} {back : Nat} (closer : u.ink ∈ closers) : Harmless t (.insert u back)
  | dedent {start stop : Nat} {u : Text} (le : start ≤ stop) (removed : (t.slice start stop).ink = [])
      (inserted : u.ink = []) : Harmless t (.dedent start stop u)

theorem harmless_newline (t : Text) {indent : Text} (h : indent.ink = []) : (newline indent).Harmless t := by
  have hink : Text.ink ('\n' :: indent) = [] := by rw [Text.ink_cons_break rfl, h]
  exact .insert (by rw [hink]; decide)

theorem harmless_afterBrace (t : Text) (c : EnterContext) (cursor statement : Nat)
    {indent : Text} (h : indent.ink = []) : (afterBrace t c cursor statement indent).Harmless t := by
  have houter : Text.ink ('\n' :: indent) = [] := by rw [Text.ink_cons_break rfl, h]
  have hinner : Text.ink ('\n' :: indent ++ c.unit.text) = [] := by
    rw [Text.ink_append, houter, c.unit.ink_text]; rfl
  unfold afterBrace
  dsimp only
  split_ifs
  · exact .insert (by rw [Text.ink_append, hinner, houter]; decide)
  · exact .insert (by rw [hinner]; decide)
  all_goals exact .insert (by rw [Text.ink_append, Text.ink_append, hinner, houter]; decide)

theorem harmless_afterHeadless? {t : Text} {c : EnterContext} {line : Nat} {indent : Text} {plan : EnterPlan}
    (h : afterHeadless? t c line indent = some plan) : plan.Harmless t := by
  unfold afterHeadless? at h
  dsimp only at h
  split_ifs at h
  cases h
  exact harmless_newline t (Text.ink_indentation _)

theorem harmless_afterLabel? {t : Text} {c : EnterContext} {cursor : Nat} {indent : Text}
    (hindent : indent.ink = []) {plan : EnterPlan} (h : afterLabel? t c cursor indent = some plan) :
    plan.Harmless t := by
  unfold afterLabel? at h
  split at h
  · cases h
  · dsimp only at h
    split_ifs at h with hlevel hblank
    · cases h
      exact harmless_newline t (by rw [Text.ink_append, hindent, c.unit.ink_text]; rfl)
    · cases h
      exact .dedent (Nat.le_add_right _ _) (Text.ink_of_allBlank hblank) (by rw [Text.ink_cons_break rfl, hindent])

/-- **Every plan is harmless**, whatever the spans say: the indentation of the statement, of a bracket's line and of a
head are blanks, and a label moves out only over blanks. -/
theorem harmless_make (t : Text) (c : EnterContext) (cursor : Nat) :
    (make t c cursor).Harmless t := by
  have hindent : ∀ line, (t.lineIndent line).ink = [] := t.ink_lineIndent
  have hinner : ∀ line, Text.ink (t.lineIndent line ++ c.unit.text) = [] := fun line => by
    rw [Text.ink_append, hindent, c.unit.ink_text]; rfl
  unfold make
  dsimp only
  split
  · exact harmless_afterBrace t c _ _ (hindent _)
  split
  · refine harmless_newline t ?_
    rw [Text.ink_append, hindent, Text.ink_of_allBlank (Text.allBlank_replicate rfl _)]; rfl
  split
  · exact harmless_newline t (hinner _)
  -- a special line, or else a plain new one
  have hspecial : ∀ special : Option EnterPlan, (∀ plan, special = some plan → plan.Harmless t) →
      (special.getD (newline (t.lineIndent (t.lineOf (statementStart t c.spans c.unit.ch cursor))))).Harmless t := by
    intro special h
    cases special with
    | none => exact harmless_newline t (hindent _)
    | some plan => exact h plan rfl
  refine hspecial _ fun plan hplan => ?_
  split_ifs at hplan
  · exact harmless_afterHeadless? hplan
  · exact harmless_afterLabel? (hindent _) hplan

end EnterPlan

namespace Buffer

theorem putsInk_apply {b : Buffer} {plan : EnterPlan} (h : plan.Harmless b.text) :
    ∃ u ∈ closers, b.PutsInk u (plan.apply b) := by
  cases h with
  | insert closer => exact ⟨_, closer, putsInk_insertAtCursor b _⟩
  | dedent le removed inserted =>
    exact ⟨[], by decide, putsInk_of_keepsInk ((keepsInk_erase b le removed).trans (keepsInk_insert _ _ inserted))⟩

theorem keepsInk_trimAroundCursor {b : Buffer} (hb : b.Within) : b.KeepsInk b.trimAroundCursor := by
  rw [trimAroundCursor_eq]
  exact keepsInk_erase b (Text.blanksAround_le _ _) (Text.ink_blanksAround hb.1)

theorem keepsInk_plainEnter {b : Buffer} (hb : b.Within) : b.KeepsInk b.plainEnter := by
  unfold plainEnter insertAtCursor
  refine (keepsInk_trimAroundCursor hb).trans (keepsInk_insert _ _ ?_)
  rw [Text.ink_cons_break rfl]
  split_ifs
  · exact Text.ink_lineIndent _ _
  · exact Text.ink_lineIndent _ _

theorem putsInk_bracketEnter {b : Buffer} (hb : b.Within) (c : EnterContext) :
    ∃ u ∈ closers, b.PutsInk u (b.bracketEnter c) := by
  have hplan := EnterPlan.harmless_make b.trimAroundCursor.text c b.trimAroundCursor.cursor
  obtain ⟨u, hu, hputs⟩ := putsInk_apply hplan
  exact ⟨u, hu, (keepsInk_trimAroundCursor hb).putsInk hputs⟩

end Buffer

end CodeEditor
