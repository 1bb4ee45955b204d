import CodeEditor.Keys.Enter
import CodeEditor.Proofs.Indent.LineShape
import CodeEditor.Proofs.Scan.Pieces
/-!
What Enter plans at the end of a line.

At the end of a line of plain code with closed brackets, the plan depends on how the line ends (`make_line`): behind an
opening brace a block starts, behind a head its body does, and behind anything else the new line keeps the indentation.
Only behind the one statement under a head it goes back to the head's (`make_under_head`).
-/

namespace CodeEditor

/-- what stands on a line of plain code behind the indentation -/
structure IsCode (w : Text) : Prop where
  starts : ∃ c rest, w = c :: rest ∧ isBlank c = false
  isBreak : ∀ c ∈ w, isBreak c = false
  quote : '\'' ∉ w
  closed : Nesting.initial.readBack? w = some .initial

theorem IndentUnit.levels_succ (unit : IndentUnit) (n : Nat) : unit.levels (n + 1) = unit.levels n ++ unit.text := by
  rw [levels, levels, text, levels, mul_add, mul_one, List.replicate_add]

namespace EnterPlan

/-- a line of code, indented by some levels, between two pieces of a text -/
structure IsCodeLine (unit : IndentUnit) (depth : Nat) (a w z : Text) : Prop where
  code : IsCode w
  before : a.endsInLineFeed = true
  behind : z.startsWithLineFeed = true

namespace IsCodeLine

variable {unit : IndentUnit} {depth : Nat} {a w z : Text}

theorem isLine (h : IsCodeLine unit depth a w z) : Text.IsLine a (unit.levels depth ++ w) z := by
  refine ⟨h.before, fun c hc => ?_, h.behind⟩
  rcases List.mem_append.1 hc with hc | hc
  · rw [IndentUnit.mem_levels hc]
    rcases (by simpa [isBlank] using unit.blank : unit.ch = ' ' ∨ unit.ch = '\t') with hch | hch <;> rw [hch] <;> rfl
  · exact h.code.isBreak c hc

theorem indentation_eq (h : IsCodeLine unit depth a w z) :
    (unit.levels depth ++ w).indentation = unit.levels depth := by
  obtain ⟨c, rest, rfl, hblank⟩ := h.code.starts
  rw [Text.indentation, List.takeWhile_append_of_pos fun d hd => by rw [IndentUnit.mem_levels hd]; exact unit.blank]
  simp [hblank]

theorem quote (h : IsCodeLine unit depth a w z) : '\'' ∉ unit.levels depth ++ w := by
  intro hmem
  rcases List.mem_append.1 hmem with hmem | hmem
  · exact ne_of_class unit.blank (by decide) (IndentUnit.mem_levels hmem).symm
  · exact h.code.quote hmem

theorem closed (h : IsCodeLine unit depth a w z) :
    Nesting.initial.readBack? (unit.levels depth ++ w) = some .initial := by
  rw [Nesting.readBack?_append, h.code.closed, Option.bind_some]
  refine Nesting.readBack?_neutral rfl fun c hc => ?_
  rw [IndentUnit.mem_levels hc]
  rcases (by simpa [isBlank] using unit.blank : unit.ch = ' ' ∨ unit.ch = '\t') with hch | hch <;> rw [hch] <;> rfl

end IsCodeLine

/-! ## The plan -/

variable {unit : IndentUnit} {depth : Nat} {a v z : Text} {e : Char} {semicolon : Bool}

/-- **The plan at the end of a line of code** -/
theorem make_line (h : IsCodeLine unit depth a (v ++ [e]) z) (semicolon : Bool) :
    let u := unit.levels depth ++ (v ++ [e])
    let t := a ++ (u ++ z)
    let c : EnterContext := ⟨.empty, unit, semicolon⟩
    let cursor := a.length + u.length
    make t c cursor =
      if e = '{' then afterBrace t c cursor (a.length + (unit.levels depth).length) (unit.levels depth)
      else if (LineShape.ofLine u).isHeadless then newline (unit.levels depth ++ unit.text)
      else (if e = ';' then afterHeadless? t c a.breakEnds.length (unit.levels depth)
        else if e = ':' then afterLabel? t c cursor (unit.levels depth)
          else none).getD (newline (unit.levels depth)) := by
  intro u t c cursor
  have hstarts : (v ++ [e]).head? ≠ some unit.ch := by
    obtain ⟨d, rest, hcons, hblank⟩ := h.code.starts
    rw [hcons, List.head?_cons]
    exact fun hch => ne_of_class unit.blank hblank (Option.some.inj hch).symm
  have hstatement : statementStart t .empty unit.ch cursor = a.length + (unit.levels depth).length :=
    statementStart_line h.isLine (fun d hd => IndentUnit.mem_levels hd) hstarts h.quote h.closed
  have hline {i : Nat} (hi : i ≤ u.length) : t.lineOf (a.length + i) = a.breakEnds.length := h.isLine.lineOf_eq hi
  have hindent : t.lineIndent (t.lineOf (a.length + (unit.levels depth).length)) = unit.levels depth := by
    rw [hline (by simp [u]), h.isLine.lineIndent_eq, h.indentation_eq]
  have hprevious : t.charAt (cursor - 1) = e := by
    have hcut : t = (a ++ unit.levels depth ++ v) ++ e :: z := by simp [t, u]
    have hlast : cursor - 1 = (a ++ unit.levels depth ++ v).length := by simp [cursor, u]; omega
    rw [hcut, hlast, Text.charAt_seam]
  have hbracket : openBracket? t .empty cursor (a.length + (unit.levels depth).length) = none := by
    have hcut : t = (a ++ unit.levels depth) ++ ((v ++ [e]) ++ z) := by simp [t, u]
    have hopen := openBracket?_piece (a := a ++ unit.levels depth) (z := z) h.code.quote rfl h.code.closed
    rw [← hcut] at hopen
    have hlen : (a ++ unit.levels depth).length + (v ++ [e]).length = cursor := by simp [cursor, u]; omega
    rw [hlen, List.length_append] at hopen
    exact hopen
  have hslice : t.slice (t.lineStart a.breakEnds.length) cursor = u := by rw [h.isLine.lineStart_eq, Text.slice_piece]
  have hcursor : 0 < cursor := by simp [cursor, u]
  have hcursorLine : t.lineOf cursor = a.breakEnds.length := hline le_rfl
  simp only [make, c, hstatement, hindent, hprevious, hbracket, hcursorLine, hslice, hcursor, decide_true,
    Bool.and_true, decide_eq_true_eq]

/-- behind a head the body is one level in -/
theorem make_head (h : IsCodeLine unit depth a (v ++ [e]) z) (he : e ≠ '{')
    (hhead : (LineShape.ofLine (unit.levels depth ++ (v ++ [e]))).isHeadless = true) :
    make (a ++ (unit.levels depth ++ (v ++ [e]) ++ z)) ⟨.empty, unit, semicolon⟩
      (a.length + (unit.levels depth ++ (v ++ [e])).length) =
      newline (unit.levels (depth + 1)) := by
  rw [make_line h semicolon, if_neg he, if_pos hhead, unit.levels_succ]

/-- a line that ends in a semicolon or a brace is no head -/
theorem isHeadless_line (he : e = ';' ∨ e = '}' ∨ e = '{') :
    (LineShape.ofLine (unit.levels depth ++ (v ++ [e]))).isHeadless = false := by
  rw [← List.append_assoc]
  exact LineShape.isHeadless_concat _ he

/-- behind a closing brace the indentation stays -/
theorem make_closer (h : IsCodeLine unit depth a (v ++ ['}']) z) :
    make (a ++ (unit.levels depth ++ (v ++ ['}']) ++ z)) ⟨.empty, unit, semicolon⟩
        (a.length + (unit.levels depth ++ (v ++ ['}'])).length) =
      newline (unit.levels depth) := by
  rw [make_line h semicolon, if_neg (by decide), isHeadless_line (Or.inr (Or.inl rfl))]
  rfl

/-- the text ends in a whole line, and that is no head without its body -/
def Settled (a : Text) : Prop :=
  a = [] ∨ ∃ b u, a = b ++ (u ++ ['\n']) ∧ Text.IsLine b u ['\n'] ∧ (LineShape.ofLine u).isHeadless = false

theorem Settled.of_line (h : IsCodeLine unit depth a (v ++ [e]) z) (he : e = ';' ∨ e = '}' ∨ e = '{') :
    Settled (a ++ (unit.levels depth ++ (v ++ [e]) ++ ['\n'])) :=
  Or.inr ⟨a, _, rfl, ⟨h.before, h.isLine.line, rfl⟩, isHeadless_line he⟩

theorem Settled.endsInLineFeed (h : Settled a) : a.endsInLineFeed = true := by
  rcases h with rfl | ⟨b, u, rfl, -, -⟩
  · rfl
  · rw [← List.append_assoc, Text.endsInLineFeed_concat]
    rfl

/-- the line above one -/
theorem lineText_above {b u w : Text} (h : Text.IsLine b u ['\n']) (ha : a = b ++ (u ++ ['\n'])) :
    0 < a.breakEnds.length ∧ (a ++ w).lineText (a.breakEnds.length - 1) = u := by
  have hcount : a.breakEnds.length = b.breakEnds.length + 1 := by rw [ha, h.length_breakEnds_concat]
  have habove : Text.IsLine b u ('\n' :: w) := ⟨h.before, h.line, rfl⟩
  refine ⟨by omega, ?_⟩
  rw [hcount, Nat.add_sub_cancel, ha]
  simpa using habove.lineText_eq

/-- behind a statement that stands under no head the indentation stays -/
theorem make_simple (h : IsCodeLine unit depth a (v ++ [';']) z) (ha : Settled a) :
    make (a ++ (unit.levels depth ++ (v ++ [';']) ++ z)) ⟨.empty, unit, semicolon⟩
        (a.length + (unit.levels depth ++ (v ++ [';'])).length) =
      newline (unit.levels depth) := by
  have hnone (w : Text) : afterHeadless? (a ++ w) ⟨.empty, unit, semicolon⟩ a.breakEnds.length (unit.levels depth) =
    none := by
    rcases ha with rfl | ⟨b, u, ha, hline, hu⟩
    · rfl
    · obtain ⟨-, habove⟩ := lineText_above (w := w) hline ha
      simp [afterHeadless?, habove, hu]
  rw [make_line h semicolon, if_neg (by decide), isHeadless_line (Or.inl rfl), if_neg Bool.false_ne_true,
    if_pos rfl, hnone]
  rfl

/-- behind the statement under a head the indentation is the head's -/
theorem make_under_head {b w : Text}
    (h : IsCodeLine unit (depth + 1) (b ++ (unit.levels depth ++ w ++ ['\n'])) (v ++ [';']) z)
    (hb : IsCodeLine unit depth b w ['\n']) (hhead : (LineShape.ofLine (unit.levels depth ++ w)).isHeadless = true) :
    make (b ++ (unit.levels depth ++ w ++ ['\n']) ++ (unit.levels (depth + 1) ++ (v ++ [';']) ++ z))
      ⟨.empty, unit, semicolon⟩
        ((b ++ (unit.levels depth ++ w ++ ['\n'])).length + (unit.levels (depth + 1) ++ (v ++ [';'])).length) =
      newline (unit.levels depth) := by
  obtain ⟨hpos, habove⟩ := lineText_above (w := unit.levels (depth + 1) ++ (v ++ [';']) ++ z) hb.isLine rfl
  have hwidth : unit.width ≤ (unit.levels (depth + 1)).length := by rw [unit.length_levels, mul_add, mul_one]; omega
  rw [make_line h semicolon, if_neg (by decide), isHeadless_line (Or.inl rfl), if_neg Bool.false_ne_true, if_pos rfl,
    afterHeadless?]
  simp only [habove, hhead, hpos, hwidth, hb.indentation_eq, decide_true, Bool.and_self, if_true, Option.getD_some]

/-- behind a block that is still to be closed there is nothing, or a closing brace less deep -/
def Closers (unit : IndentUnit) (depth : Nat) (z : Text) : Prop :=
  z = [] ∨ ∃ outer rest, outer < depth ∧ z = '\n' :: (unit.levels outer ++ '}' :: rest) ∧
  Text.startsWithLineFeed rest = true

theorem Closers.startsWithLineFeed (h : Closers unit depth z) : z.startsWithLineFeed = true := by
  rcases h with rfl | ⟨_, _, -, rfl, -⟩ <;> rfl

theorem isCode_closer : IsCode ['}'] :=
  ⟨⟨'}', [], rfl, rfl⟩, fun c hc => by rw [List.mem_singleton.1 hc]; rfl, by decide, rfl⟩

/-- the next closing brace, if there is one, is less deep than this block -/
theorem closingBrace?_closers (hz : Closers unit depth z) {b : Text} {start : Nat} (hstart : start + 1 = b.length) :
    closingBrace? (b ++ z) .empty start = none ∨
      ∃ close, closingBrace? (b ++ z) .empty start = some close ∧
        (Text.lineIndent (b ++ z) (Text.lineOf (b ++ z) close)).length ≠ (unit.levels depth).length := by
  rcases hz with rfl | ⟨outer, rest, houter, rfl, hrest⟩
  · left
    rw [closingBrace?, List.append_nil, hstart, Nat.sub_self]
    rfl
  · right
    have hneutral : ∀ c ∈ '\n' :: unit.levels outer, c ≠ '\'' ∧ c ≠ '{' ∧ c ≠ '}' := by
      intro c hc
      rcases List.mem_cons.1 hc with rfl | hc
      · decide
      · rw [IndentUnit.mem_levels hc]
        exact ⟨ne_of_class unit.blank rfl, ne_of_class unit.blank rfl, ne_of_class unit.blank rfl⟩
    have hclose := closingBrace?_piece (z := rest) hstart hneutral
    have hcode : IsCodeLine unit outer (b ++ ['\n']) ['}'] rest := ⟨isCode_closer, by simp, hrest⟩
    have hcut : b ++ '\n' :: (unit.levels outer ++ '}' :: rest) =
      b ++ ['\n'] ++ (unit.levels outer ++ ['}'] ++ rest) := by
      simp
    have hoffset : b.length + ('\n' :: unit.levels outer).length =
      (b ++ ['\n']).length + (unit.levels outer).length := by
      simp; omega
    have hindent := hcode.isLine.lineIndent_eq
    rw [hcode.indentation_eq] at hindent
    rw [List.cons_append, hoffset, hcut] at hclose
    refine ⟨_, hcut ▸ hclose, ?_⟩
    rw [hcut, hcode.isLine.lineOf_eq (by simp), hindent, unit.length_levels, unit.length_levels]
    exact (Nat.mul_lt_mul_of_pos_left houter unit.pos).ne

/-- behind an opening brace a block starts, and is closed -/
theorem make_opener (h : IsCodeLine unit depth a (v ++ ['{']) z) (hz : Closers unit depth z) :
    make (a ++ (unit.levels depth ++ (v ++ ['{']) ++ z)) ⟨.empty, unit, false⟩
        (a.length + (unit.levels depth ++ (v ++ ['{'])).length) =
      .insert ('\n' :: unit.levels (depth + 1) ++ '\n' :: unit.levels depth ++ ['}'])
        ((unit.levels depth).length + 2) := by
  set u := unit.levels depth ++ (v ++ ['{']) with hu
  have hlen : a.length + u.length - 1 + 1 = (a ++ u).length := by simp [hu]; omega
  have hclose := closingBrace?_closers hz hlen
  have hbehind := Text.charAt_behind h.behind (a ++ u)
  rw [List.append_assoc] at hclose hbehind
  rw [List.length_append] at hbehind
  have hnext : Text.charAt (a ++ (u ++ z)) (a.length + u.length) ≠ '}' := by
    rcases hbehind with hc | hc <;> rw [hc] <;> decide
  rw [make_line h false, if_pos rfl, afterBrace, unit.levels_succ]
  rcases hclose with hnone | ⟨close, hsome, hne⟩
  · simp only [← hu, hnone, if_neg hnext]
    simp [Nat.add_assoc]
  · simp only [← hu, hsome, if_neg hnext, beq_eq_false_iff_ne.2 hne]
    simp [Nat.add_assoc]

end EnterPlan

end CodeEditor
