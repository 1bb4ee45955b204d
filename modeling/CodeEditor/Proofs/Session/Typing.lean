import CodeEditor.Proofs.Buffer.Cursor
import CodeEditor.Proofs.Session.Keys
/-!
Typing code.

In a language with blocks between braces and without a classifier, a session without a selection is what stands on both
sides of the cursor (`Typing`). Characters go before the cursor, Enter at the end of a line of code does what is planned
there, and Down and End leave a block.
-/

namespace CodeEditor.Session

/-- press keys, one after the other and without modifiers -/
def pressKeys (s : Session) (keys : List Key) : Session :=
  keys.foldl (fun s key => s.pressKey key .none) s

theorem pressKeys_append (s : Session) (keys more : List Key) :
    s.pressKeys (keys ++ more) = (s.pressKeys keys).pressKeys more :=
  List.foldl_append ..

theorem pressKeys_cons (s : Session) (key : Key) (more : List Key) :
    s.pressKeys (key :: more) = (s.pressKey key .none).pressKeys more :=
  rfl

/-- code is typed between two pieces of the text -/
structure Typing (s : Session) (unit : IndentUnit) (before behind : Text) : Prop where
  buffer : s.buffer.At before behind
  unit : s.unit = unit
  bracket : s.language.isBracket = true
  records : s.language.closesRecordsWithSemicolon = false
  classifier : s.classifier = none
  spans : s.spans = .empty

namespace Typing

variable {s : Session} {unit : IndentUnit} {before behind : Text}

theorem text (h : s.Typing unit before behind) : s.text = before ++ behind :=
  h.buffer.text

theorem sync (h : s.Typing unit before behind) : s.sync = s := by
  rw [Session.sync, h.classifier]

theorem inLiteral (h : s.Typing unit before behind) : s.inLiteral = false := by
  have hcovers (offset : Nat) : Spans.empty.covers offset = false := rfl
  rw [Session.inLiteral, h.spans, hcovers, Bool.and_false]

/-- only the buffer changes -/
theorem withBuffer (h : s.Typing unit before behind) {b : Buffer} {before' behind' : Text} (hb : b.At before' behind') :
    Typing { s with buffer := b } unit before' behind' :=
  ⟨hb, h.unit, h.bracket, h.records, h.classifier, h.spans⟩

/-- the usual effect of a character -/
theorem grouped_char (h : s.Typing unit before behind) (c : Char) :
    (s.grouped fun b => b.defaultKey (.char c) .none).Typing unit (before ++ [c]) behind :=
  h.withBuffer (h.buffer.grouped fun _ hb => hb.typeText [c])

theorem char (h : s.Typing unit before behind) {c : Char} (hopen : c ≠ '{') (hclose : c ≠ '}') :
    (s.pressKey (.char c) .none).Typing unit (before ++ [c]) behind := by
  have hkey : s.handleKey (.char c) .none = (.passThrough, s) := by
    rw [handleKey_char]
    simp only [h.sync, h.buffer.hasSelection, h.inLiteral, h.bracket, hopen, hclose, Bool.not_true, Bool.or_self,
      Bool.false_eq_true, if_false]
  rw [pressKey, hkey]
  exact h.grouped_char c

theorem chars (h : s.Typing unit before behind) {u : Text} (hopen : '{' ∉ u) (hclose : '}' ∉ u) :
    (s.pressKeys (u.map .char)).Typing unit (before ++ u) behind := by
  induction u generalizing s before with
  | nil => simpa [pressKeys] using h
  | cons c u ih =>
    simp only [List.mem_cons, not_or] at hopen hclose
    have hrest := ih (h.char (Ne.symm hopen.1) (Ne.symm hclose.1)) hopen.2 hclose.2
    rw [List.map_cons, pressKeys_cons]
    simpa using hrest

variable {depth : Nat} {a v w z : Text} {e : Char}

/-- a line goes on behind its indentation -/
theorem line_chars {indent : Text} (h : s.Typing unit (a ++ indent) z) (hopen : '{' ∉ w) (hclose : '}' ∉ w) :
    (s.pressKeys (w.map .char)).Typing unit (a ++ (indent ++ w)) z := by
  rw [← List.append_assoc]
  exact h.chars hopen hclose

/-- an opening brace behind other code -/
theorem opener (h : s.Typing unit (a ++ (unit.levels depth ++ w)) z) (hline : EnterPlan.IsCodeLine unit depth a w z) :
    (s.pressKey (.char '{') .none).Typing unit (a ++ (unit.levels depth ++ (w ++ ['{']))) z := by
  obtain ⟨d, rest, hcons, -⟩ := hline.code.starts
  have hhead : s.buffer.openGroup.isUnderHead unit = false := by
    have hb : s.buffer.openGroup.At (a ++ (unit.levels depth ++ w)) z := ⟨h.buffer.text, h.buffer.marks⟩
    have htext : s.buffer.openGroup.text = a ++ (unit.levels depth ++ w ++ z) := by rw [hb.text, List.append_assoc]
    have hcursor : s.buffer.openGroup.cursor = a.length + (unit.levels depth ++ w).length := by
      rw [hb.cursor, List.length_append]
    have hend : s.buffer.openGroup.cursor ≠ s.buffer.openGroup.text.lineIndentEnd s.buffer.openGroup.cursorLine := by
      rw [Buffer.cursorLine, hcursor, htext, hline.isLine.lineOf_eq le_rfl, Text.lineIndentEnd,
        hline.isLine.lineStart_eq, hline.isLine.lineIndent_eq, hline.indentation_eq, hcons, List.length_append,
        List.length_cons]
      omega
    rw [Buffer.isUnderHead, beq_eq_false_iff_ne.2 hend]
    simp
  have htry : s.tryGrouped (·.openBrace s.unit) =
    (.passThrough, { s with buffer := s.buffer.openGroup.closeGroup }) := by
    rw [tryGrouped, groupedWith, Buffer.openBrace, h.unit, hhead]
    rfl
  have hkey : s.handleKey (.char '{') .none = (.passThrough, { s with buffer := s.buffer.openGroup.closeGroup }) := by
    rw [handleKey_char]
    simp only [h.sync, h.buffer.hasSelection, h.inLiteral, h.bracket, htry, Bool.not_true, Bool.or_self,
      Bool.false_eq_true, if_false, Char.reduceEq, if_true]
  rw [pressKey, hkey]
  have htyped := (h.withBuffer (b := s.buffer.openGroup.closeGroup) ⟨h.buffer.text, h.buffer.marks⟩).grouped_char '{'
  simpa using htyped

/-- Enter at the end of a line of code -/
theorem enter (h : s.Typing unit (a ++ (unit.levels depth ++ (v ++ [e]))) z)
    (hline : EnterPlan.IsCodeLine unit depth a (v ++ [e]) z) (he : isBlank e = false) {u w : Text}
    (hplan : EnterPlan.make (a ++ (unit.levels depth ++ (v ++ [e]) ++ z)) ⟨.empty, unit, false⟩
      (a.length + (unit.levels depth ++ (v ++ [e])).length) = .insert (u ++ w) w.length) :
    (s.pressKey .enter .none).Typing unit (a ++ (unit.levels depth ++ (v ++ [e])) ++ u) (w ++ z) := by
  have hcontext : s.enterContext = ⟨.empty, unit, false⟩ := by rw [enterContext, h.spans, h.unit, h.records]
  have hlf : e ≠ '\n' := by
    rintro rfl
    have hbreak := hline.code.isBreak '\n' (by simp)
    cases hbreak
  have hstart : s.text.startsLine s.buffer.cursor = false := by
    rw [h.text, h.buffer.cursor, Text.startsLine_seam, ← List.append_assoc, ← List.append_assoc,
      Text.endsInLineFeed_concat, beq_eq_false_iff_ne]
    exact hlf
  have hkey : s.handleKey .enter .none = (.handled, s.grouped fun b => b.bracketEnter s.enterContext) := by
    rw [handleKey_enter s .none h.buffer.hasSelection]
    simp only [h.sync, hstart, h.inLiteral, h.bracket, Bool.not_true, Bool.or_self, Bool.false_eq_true, if_false]
  rw [pressKey, hkey]
  refine h.withBuffer (h.buffer.grouped fun b hb => ?_)
  rw [hcontext, hb.bracketEnter hline he, hplan]
  exact hb.apply_insert

/-- Enter at the end of a line of code, where it only starts a new line -/
theorem newline (h : s.Typing unit (a ++ (unit.levels depth ++ (v ++ [e]))) z)
    (hline : EnterPlan.IsCodeLine unit depth a (v ++ [e]) z) (he : isBlank e = false) {indent : Text}
    (hplan : EnterPlan.make (a ++ (unit.levels depth ++ (v ++ [e]) ++ z)) ⟨.empty, unit, false⟩
      (a.length + (unit.levels depth ++ (v ++ [e])).length) = EnterPlan.newline indent) :
    (s.pressKey .enter .none).Typing unit (a ++ (unit.levels depth ++ (v ++ [e])) ++ '\n' :: indent) z := by
  have hinsert : EnterPlan.newline indent = .insert ('\n' :: indent ++ []) 0 := by
    rw [List.append_nil]
    rfl
  exact h.enter hline he (hplan.trans hinsert)

/-- Down and End leave a block from the end of a line that is as long as the next one -/
theorem leave {u : Text} (h : s.Typing unit (a ++ u) ('\n' :: (w ++ [e] ++ z)))
    (hu : Text.IsLine a u ('\n' :: (w ++ [e] ++ z))) (hw : Text.IsLine (a ++ u ++ ['\n']) (w ++ [e]) z)
    (hlen : (w ++ [e]).length ≤ u.length) (he : isBlank e = false) :
    (s.pressKeys [.down, .stop]).Typing unit (a ++ u ++ '\n' :: (w ++ [e])) z := by
  have hdown : s.handleKey .down .none = (.passThrough, s) := by
    simp [handleKey, handleBracket, handleBasic, h.sync, Key.isUnindent, Modifiers.none]
  set s' : Session := s.grouped fun b => b.defaultKey .down .none with hs'
  have hlower : s'.Typing unit (a ++ u ++ '\n' :: (w ++ [e])) z :=
    h.withBuffer (h.buffer.grouped fun b hb => hb.down hu hw hlen)
  have hstop : s'.handleKey .stop .none = (.handled, s'.mapBuffer fun b => b.moveCursor b.endTarget false) := by
    simp [handleKey, handleBracket, handleBasic, hlower.sync, Key.isUnindent, Modifiers.none]
  have hkeys : s.pressKeys [.down, .stop] = s'.mapBuffer fun b => b.moveCursor b.endTarget false := by
    have hfirst : s.pressKey .down .none = s' := by rw [pressKey, hdown]
    have hsecond : s'.pressKey .stop .none = s'.mapBuffer fun b => b.moveCursor b.endTarget false := by
      rw [pressKey, hstop]
    rw [pressKeys_cons, hfirst, pressKeys_cons, hsecond]
    rfl
  have hcut : a ++ u ++ '\n' :: (w ++ [e]) = a ++ u ++ ['\n'] ++ (w ++ [e]) := by simp
  rw [hkeys]
  rw [hcut] at hlower ⊢
  exact hlower.withBuffer (hlower.buffer.stop hw he)

end Typing

end CodeEditor.Session
