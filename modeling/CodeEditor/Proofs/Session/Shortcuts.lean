import CodeEditor.Proofs.Session.Run
import CodeEditor.Proofs.Session.Keys
/-!
Characters typed with Control or the command key.

Such a key is a shortcut of the host and types nothing: the usual effect of a character asks for the modifiers. The
handlers of braces come first, though, and do not ask. So a brace where it acts (`ActsAsBrace`) is typed all the same,
as if no modifier were held, and everywhere else a shortcut leaves the session as it was (`shortcut_types_only_braces`).
-/

namespace CodeEditor

namespace Buffer

theorem lt_insertAtCursor (b : Buffer) {t : Text} (ht : t ≠ []) : b.revision < (b.insertAtCursor t).revision := by
  rw [insertAtCursor, insert, List.isEmpty_eq_false_iff.2 ht, if_neg Bool.false_ne_true, edit_revision]
  exact Nat.lt_succ_self _

theorem le_erase (b : Buffer) (x y : Nat) : b.revision ≤ (b.erase x y).revision := by
  rcases b.erase_cases x y with h | ⟨e, -, h⟩
  · rw [h]
  · rw [h, edit_revision]
    exact Nat.le_succ _

theorem lt_closeBrace (b : Buffer) (unit : IndentUnit) : b.revision < (b.closeBrace unit).revision := by
  rw [closeBrace]
  refine Nat.lt_of_le_of_lt ?_ (lt_insertAtCursor _ (List.cons_ne_nil _ _))
  split_ifs
  · exact b.le_erase _ _
  · exact Nat.le_refl _

theorem lt_openBrace {b : Buffer} {unit : IndentUnit} (h : b.isUnderHead unit = true) :
    b.revision < (b.openBrace unit).2.revision := by
  rw [openBrace, if_pos h]
  exact Nat.lt_of_le_of_lt (b.le_erase _ _) (lt_insertAtCursor _ (List.cons_ne_nil _ _))

end Buffer

namespace Session

variable {s : Session} {c : Char} {mods : Modifiers}

/-- nothing is selected, and the cursor stands in code of a language with braces -/
def InCode (s : Session) : Prop :=
  s.buffer.hasSelection = false ∧ s.sync.inLiteral = false ∧ s.language.isBracket = true

instance (s : Session) : Decidable s.InCode :=
  inferInstanceAs (Decidable (_ ∧ _))

/-- a brace with a handler of its own: any closing one in code, and an opening one in code under a head -/
def ActsAsBrace (s : Session) (c : Char) : Prop :=
  s.InCode ∧ (c = '}' ∨ c = '{' ∧ s.buffer.isUnderHead s.unit = true)

instance (s : Session) (c : Char) : Decidable (s.ActsAsBrace c) :=
  inferInstanceAs (Decidable (_ ∧ _))

theorem handleKey_char_of_inCode (h : s.InCode) (c : Char) (mods : Modifiers) :
    s.handleKey (.char c) mods =
      if c = '}' then (.handled, s.sync.grouped fun b => b.closeBrace s.unit)
      else if c = '{' then s.sync.tryGrouped (·.openBrace s.unit)
      else (.passThrough, s.sync) := by
  obtain ⟨hsel, hliteral, hlanguage⟩ := h
  have hplace : (s.sync.buffer.hasSelection || s.sync.inLiteral || !s.sync.language.isBracket) = false := by
    rw [sync_buffer, sync_language, hsel, hliteral, hlanguage]
    rfl
  rw [handleKey_char]
  dsimp only
  rw [hplace, if_neg Bool.false_ne_true, sync_unit]

theorem handleKey_char_of_not_inCode (h : ¬ s.InCode) (c : Char) (mods : Modifiers) :
    s.handleKey (.char c) mods = (.passThrough, s.sync) := by
  have hplace : (s.sync.buffer.hasSelection || s.sync.inLiteral || !s.sync.language.isBracket) = true := by
    rw [sync_buffer, sync_language]
    by_contra hcode
    rw [Bool.not_eq_true, Bool.or_eq_false_iff, Bool.or_eq_false_iff, Bool.not_eq_false'] at hcode
    exact h ⟨hcode.1.1, hcode.1.2, hcode.2⟩
  rw [handleKey_char]
  exact if_pos hplace

/-- the handler of an opening brace asks for the head above the cursor -/
theorem tryGrouped_openBrace (s : Session) : s.sync.tryGrouped (·.openBrace s.unit) =
    if s.buffer.isUnderHead s.unit then (.handled, s.sync.grouped fun b => (b.openBrace s.unit).2)
      else (.passThrough, s.sync.grouped id) := by
  have hhead : s.sync.buffer.openGroup.isUnderHead s.unit = s.buffer.isUnderHead s.unit := by rw [sync_buffer]; rfl
  rw [tryGrouped, groupedWith, Buffer.openBrace, hhead]
  cases hunder : s.buffer.isUnderHead s.unit with
  | true =>
    have hopen : (s.sync.buffer.openGroup.openBrace s.unit).2 =
        (s.sync.buffer.openGroup.erase (s.sync.buffer.openGroup.cursor - s.unit.width)
          s.sync.buffer.openGroup.cursor).insertAtCursor ['{'] := by
      rw [Buffer.openBrace, if_pos (hhead.trans hunder)]
    rw [if_pos rfl, if_pos rfl, grouped, mapBuffer, Buffer.grouped, hopen]
    rfl
  | false => rfl

/-- a shortcut that passes through does nothing -/
theorem untouched_passed (s : Session) (c : Char) (hmods : (mods.control || mods.command) = true) :
    s.buffer.Untouched (s.grouped fun b => b.defaultKey (.char c) mods).buffer := by
  have hidle : (fun b : Buffer => b.defaultKey (.char c) mods) = id := by
    funext b
    rw [Buffer.defaultKey, if_pos hmods]
    rfl
  rw [hidle]
  exact s.buffer.untouched_group

/-- where a brace acts, the modifiers do not matter -/
theorem pressKey_of_acts (h : s.ActsAsBrace c) (mods : Modifiers) :
    s.pressKey (.char c) mods =
      s.sync.grouped fun b => if c = '}' then b.closeBrace s.unit else (b.openBrace s.unit).2 := by
  obtain ⟨hcode, rfl | ⟨rfl, hhead⟩⟩ := h
  · rw [pressKey, handleKey_char_of_inCode hcode]
    rfl
  · rw [pressKey, handleKey_char_of_inCode hcode, tryGrouped_openBrace, if_pos hhead]
    rfl

theorem lt_pressKey_of_acts (h : s.ActsAsBrace c) (mods : Modifiers) :
    s.buffer.revision < (s.pressKey (.char c) mods).buffer.revision := by
  rw [pressKey_of_acts h, ← s.sync_buffer]
  obtain ⟨-, rfl | ⟨rfl, hhead⟩⟩ := h
  · exact Buffer.lt_closeBrace s.sync.buffer.openGroup s.unit
  · have hhead' : s.sync.buffer.openGroup.isUnderHead s.unit = true := by rw [sync_buffer]; exact hhead
    have hlt := Buffer.lt_openBrace hhead'
    exact hlt

/-- **Everywhere else** a shortcut changes nothing. -/
theorem untouched_of_not_acts (h : ¬ s.ActsAsBrace c) (hmods : (mods.control || mods.command) = true) :
    s.buffer.Untouched (s.pressKey (.char c) mods).buffer := by
  have hpassed := untouched_passed s.sync c hmods
  rw [pressKey, ← s.sync_buffer]
  by_cases hcode : s.InCode
  · rw [handleKey_char_of_inCode hcode]
    split_ifs with hclose hopen
    · exact absurd ⟨hcode, .inl hclose⟩ h
    · -- an opening brace that stands under no head is declined, after its group was opened
      have hhead : ¬ s.buffer.isUnderHead s.unit = true := fun hhead => h ⟨hcode, .inr ⟨hopen, hhead⟩⟩
      rw [tryGrouped_openBrace, if_neg hhead]
      exact s.sync.buffer.untouched_group.trans (untouched_passed (s.sync.grouped id) c hmods)
    · exact hpassed
  · rw [handleKey_char_of_not_inCode hcode]
    exact hpassed

/-- **A shortcut types nothing but braces.** With Control or the command key held, a character leaves text, marks,
revision and both stacks of steps as they were, except for a brace where it acts. That one is typed as if no modifier
were held, and the revision moves. -/
theorem shortcut_types_only_braces (s : Session) (c : Char) {mods : Modifiers}
    (hmods : (mods.control || mods.command) = true) :
    (s.buffer.Untouched (s.pressKey (.char c) mods).buffer ↔ ¬ s.ActsAsBrace c) ∧
      (s.ActsAsBrace c → s.pressKey (.char c) mods = s.pressKey (.char c) .none ∧
        s.buffer.revision < (s.pressKey (.char c) mods).buffer.revision) := by
  have htyped : s.ActsAsBrace c → s.buffer.revision < (s.pressKey (.char c) mods).buffer.revision :=
    fun h => lt_pressKey_of_acts h mods
  refine ⟨⟨fun huntouched h => ?_, fun h => untouched_of_not_acts h hmods⟩, fun h => ⟨?_, htyped h⟩⟩
  · exact absurd (huntouched.revision ▸ htyped h) (Nat.lt_irrefl _)
  · rw [pressKey_of_acts h, pressKey_of_acts h]

/-- in C++, Control and a letter do nothing, and Control and a closing brace type the brace -/
theorem shortcuts_in_code :
    let s := ofText ['a'] (.ofId (some "cpp")) .default
    let control : Modifiers := ⟨false, true, false, false⟩
    ((control.control || control.command) = true ∧ ¬ s.ActsAsBrace 'z' ∧ s.ActsAsBrace '}') ∧
      s.buffer.Untouched (s.pressKey (.char 'z') control).buffer ∧
      s.pressKey (.char '}') control = s.pressKey (.char '}') .none := by
  intro s control
  have hletter : ¬ s.ActsAsBrace 'z' := by decide
  have hbrace : s.ActsAsBrace '}' := by decide
  have hmods : (control.control || control.command) = true := rfl
  obtain ⟨hnothing, -⟩ := shortcut_types_only_braces s 'z' hmods
  obtain ⟨-, htyped⟩ := shortcut_types_only_braces s '}' hmods
  exact ⟨⟨hmods, hletter, hbrace⟩, hnothing.2 hletter, (htyped hbrace).1⟩

/-- so this shortcut changes the text -/
theorem shortcut_types_brace :
    let s := ofText ['a'] (.ofId (some "cpp")) .default
    let control : Modifiers := ⟨false, true, false, false⟩
    (s.pressKey (.char '}') control).text = ['}', 'a'] ∧ s.text = ['a'] ∧
      ¬ s.buffer.Untouched (s.pressKey (.char '}') control).buffer := by
  intro s control
  have htext : (s.pressKey (.char '}') control).text = ['}', 'a'] := by cbv
  have hbefore : s.text = ['a'] := by decide
  have hne : ['}', 'a'] ≠ ['a'] := by decide
  exact ⟨htext, hbefore, fun h => hne (htext.symm.trans (h.text.trans hbefore))⟩

end Session

end CodeEditor
