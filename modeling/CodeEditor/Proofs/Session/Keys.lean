import CodeEditor.Proofs.Session.Commands
/-!
Which handler answers a key.

Keys are looked at in two places, one for all languages and one for those with braces, and each place tests the key
against several others first. What is left of that for one key is stated here once: Tab always has its handler, Enter
has one of two or none, and a brace that is handled is handled by the handler of that brace.
-/

namespace CodeEditor.Session

/-- keys without a handling of their own where blocks stand between braces -/
theorem handleKey_basic (s : Session) {key : Key} (mods : Modifiers) (henter : key ≠ .enter)
    (hchar : ∀ c, key ≠ .char c) (hup : key ≠ .up) (hdown : key ≠ .down) :
    s.handleKey key mods = s.sync.handleBasic key mods := by
  simp only [handleKey, handleBracket, hup, hdown, henter, hchar, decide_false, Bool.or_false, Bool.and_false,
    Bool.false_and, Bool.false_eq_true, if_false, ite_self]

/-- Tab indents, and with Shift it takes indentation away -/
def tabEffect (s : Session) (key : Key) (mods : Modifiers) (b : Buffer) : Buffer :=
  if key.isUnindent mods then b.unindentLines s.unit else b.indentLines s.unit s.config.tabIndentsLine

theorem handleKey_tab (s : Session) {key : Key} (hkey : key = .tab ∨ key = .backTab) (mods : Modifiers) :
    s.handleKey key mods = (.handled, s.sync.grouped (s.sync.tabEffect key mods)) := by
  have hbasic : s.handleKey key mods = s.sync.handleBasic key mods := by
    rcases hkey with rfl | rfl <;> exact s.handleKey_basic mods (by simp) (by simp) (by simp) (by simp)
  rw [hbasic]
  by_cases hun : key.isUnindent mods = true
  · have heffect : s.sync.tabEffect key mods = fun b => b.unindentLines s.sync.unit := by
      funext b; rw [tabEffect, if_pos hun]
    rcases hkey with rfl | rfl <;> simp [handleBasic, heffect, hun]
  · have heffect : s.sync.tabEffect key mods = fun b => b.indentLines s.sync.unit s.sync.config.tabIndentsLine := by
      funext b; rw [tabEffect, if_neg hun]
    have htab : key = .tab := by
      rcases hkey with rfl | rfl
      · rfl
      · exact absurd rfl hun
    subst htab
    simp [handleBasic, heffect, hun]

/-- a deletion key that is handled is handled by its smart form -/
theorem handleKey_deletion (s : Session) {key : Key} (hkey : key = .backspace ∨ key = .delete) (mods : Modifiers)
    (h : (s.handleKey key mods).1 = .handled) :
    (key = .backspace ∧ s.handleKey key mods = s.sync.tryGrouped Buffer.smartBackspace) ∨
      (key = .delete ∧ s.handleKey key mods = s.sync.tryGrouped Buffer.smartDelete) := by
  have hbasic : s.handleKey key mods = s.sync.handleBasic key mods := by
    rcases hkey with rfl | rfl <;> exact s.handleKey_basic mods (by simp) (by simp) (by simp) (by simp)
  rw [hbasic] at h ⊢
  cases hsel : s.sync.buffer.hasSelection with
  | true => rcases hkey with rfl | rfl <;> simp [handleBasic, hsel, Key.isUnindent] at h
  | false =>
    rcases hkey with rfl | rfl
    · left; simp [handleBasic, hsel, Key.isUnindent]
    · right; simp [handleBasic, hsel, Key.isUnindent]

theorem handleBasic_enter (s : Session) (mods : Modifiers) (hsel : s.buffer.hasSelection = false) :
    s.handleBasic .enter mods =
      if s.text.startsLine s.buffer.cursor then (.passThrough, s) else (.handled, s.grouped Buffer.plainEnter) := by
  cases hstart : s.text.startsLine s.buffer.cursor with
  | true => simp [handleBasic, ← text.eq_1, hstart, Key.isUnindent]
  | false => simp [handleBasic, ← text.eq_1, hstart, hsel]

/-- without a selection, Enter passes through at a line start, and elsewhere has the handler of the language -/
theorem handleKey_enter (s : Session) (mods : Modifiers) (hsel : s.buffer.hasSelection = false) :
    s.handleKey .enter mods =
      let s := s.sync
      if s.text.startsLine s.buffer.cursor then (.passThrough, s)
      else if s.inLiteral || !s.language.isBracket then (.handled, s.grouped Buffer.plainEnter)
      else (.handled, s.grouped fun b => b.bracketEnter s.enterContext) := by
  have hsel' : s.sync.buffer.hasSelection = false := by rw [sync_buffer]; exact hsel
  have hbasic := s.sync.handleBasic_enter mods hsel'
  simp only [handleKey, handleBracket, hsel', hbasic]
  cases s.sync.text.startsLine s.sync.buffer.cursor <;> simp

/-- of the characters only braces are special, and only in code -/
theorem handleKey_char (s : Session) (c : Char) (mods : Modifiers) :
    s.handleKey (.char c) mods =
      let s := s.sync
      if s.buffer.hasSelection || s.inLiteral || !s.language.isBracket then (.passThrough, s)
      else if c = '}' then (.handled, s.grouped fun b => b.closeBrace s.unit)
      else if c = '{' then s.tryGrouped (·.openBrace s.unit)
      else (.passThrough, s) := by
  simp only [handleKey, handleBracket, handleBasic_char]
  rcases hopen : s.sync.tryGrouped (·.openBrace s.sync.unit) with ⟨_ | _, s'⟩ <;> simp

end CodeEditor.Session
