import CodeEditor.Proofs.Scan.Contents
import CodeEditor.Keys.Enter
/-!
What Enter reads of a span table.

The scans of a plan ask a table one thing only, whether it covers an offset of the text. So two tables that agree on the
offsets of a text give the same plan for it (`EnterPlan.make_congr`), whatever they say about offsets behind its end.
-/

namespace CodeEditor

/-- two tables cover the same of the first `n` offsets -/
def Spans.AgreeOn (n : Nat) (spans spans' : Spans) : Prop :=
  ∀ offset < n, spans.covers offset = spans'.covers offset

section

variable {t : Text} {spans spans' : Spans} (h : spans.AgreeOn t.length spans')
include h

/-! ## Scans -/

theorem Nesting.read_congr (n : Nesting) (offset : Nat) : n.read t spans offset = n.read t spans' offset := by
  by_cases ho : offset < t.length
  · rw [read, read, h offset ho]
  · -- behind the text there is nothing to read
    have hnul := Text.charAt_of_length_le t (Nat.le_of_not_lt ho)
    simp [read, hnul, nul]

theorem statementLineStart_congr (n : Nesting) (offset : Nat) :
    statementLineStart t spans n offset = statementLineStart t spans' n offset := by
  induction offset generalizing n with
  | zero => rfl
  | succ offset ih => simp only [statementLineStart, Nesting.read_congr h, ih]

theorem statementStart_congr (indent : Char) (start : Nat) :
    statementStart t spans indent start = statementStart t spans' indent start := by
  rw [statementStart, statementStart, statementLineStart_congr h]

theorem BraceDepth.read?_congr (opener target : Char) {offset : Nat} (ho : offset < t.length) (d : BraceDepth) :
    d.read? t spans opener target offset = d.read? t spans' opener target offset := by
  rw [read?, read?, h offset ho]

theorem openBracket?_congr (stop : Nat) {start : Nat} (hstart : start ≤ t.length) :
    openBracket? t spans start stop = openBracket? t spans' start stop :=
  openBracketFrom_eq_of_read stop _ (fun o ho => h o (by omega)) fun o _ n => Nesting.read_congr h n o

theorem closingBrace?_congr (start : Nat) : closingBrace? t spans start = closingBrace? t spans' start := by
  refine BraceDepth.find?_eq_of_read? _ fun offset ho => BraceDepth.read?_congr h _ _ ?_
  rw [List.mem_range'_1] at ho
  omega

theorem openingBrace?_congr {start : Nat} (hstart : start ≤ t.length) :
    openingBrace? t spans start = openingBrace? t spans' start := by
  refine BraceDepth.find?_eq_of_read? _ fun offset ho => BraceDepth.read?_congr h _ _ ?_
  rw [List.mem_reverse, List.mem_range] at ho
  omega

/-! ## The plan -/

theorem opensRecord_congr (unit : IndentUnit) (semicolon : Bool) (statement : Nat) :
    opensRecord t ⟨spans, unit, semicolon⟩ statement = opensRecord t ⟨spans', unit, semicolon⟩ statement := by
  simp only [opensRecord, statementStart_congr h]

/-- **Tables that agree on a text** give the same plan for it. -/
theorem EnterPlan.make_congr (unit : IndentUnit) (semicolon : Bool) {cursor : Nat} (hcursor : cursor ≤ t.length) :
    make t ⟨spans, unit, semicolon⟩ cursor = make t ⟨spans', unit, semicolon⟩ cursor := by
  have hbracket : ∀ stop, openBracket? t spans cursor stop = openBracket? t spans' cursor stop :=
    fun stop => openBracket?_congr h stop hcursor
  have hopening : openingBrace? t spans (cursor - 1) = openingBrace? t spans' (cursor - 1) :=
    openingBrace?_congr h (by omega)
  simp only [make, afterBrace, afterLabel?, afterHeadless?, opensRecord_congr h, statementStart_congr h,
    closingBrace?_congr h, hbracket, hopening]

end

end CodeEditor
