import CodeEditor.Proofs.Session.Run
import CodeEditor.Proofs.Text.Positions
import CodeEditor.Proofs.Text.Runs
/-!
Home and End.

On each line Home has two stops, the start of the line and the start of its text, and End has two, the end of the text
of the line and the end of the line. What the text of a line is, is said without the keys (`Text.IsTextStart`,
`Text.IsTextEnd`). From wherever the cursor is, a press leads to one of the two stops, and from each of them to the
other (`Session.Turn`); the line is the same afterwards, and so are its stops (`presses_sameLine`). So of any number of
presses each one after the first leads to the stop that the one before did not lead to (`home_and_end_alternate`).
-/

namespace CodeEditor

namespace Text

/-- behind the leading blanks of a line -/
structure IsTextStart (t : Text) (line o : Nat) : Prop where
  start_le : t.lineStart line ≤ o
  le_end : o ≤ t.lineEnd line
  blank : ∀ i, t.lineStart line ≤ i → i < o → isBlank (t.charAt i) = true
  text : o < t.lineEnd line → isBlank (t.charAt o) = false

/-- before the trailing blanks of a line -/
structure IsTextEnd (t : Text) (line o : Nat) : Prop where
  start_le : t.lineStart line ≤ o
  le_end : o ≤ t.lineEnd line
  text : t.lineStart line < o → isBlank (t.charAt (o - 1)) = false
  blank : ∀ i, o ≤ i → i < t.lineEnd line → isBlank (t.charAt i) = true

variable {t : Text} {line : Nat}

theorem charAt_lineText (h : line < t.lineCount) {n : Nat} (hn : n < (t.lineText line).length) :
    (t.lineText line).charAt n = t.charAt (t.lineStart line + n) := by
  have hlen := length_lineText h
  rw [lineText, if_pos h]
  exact t.charAt_slice (by omega)

theorem isTextStart_lineIndentEnd (h : line < t.lineCount) : t.IsTextStart line (t.lineIndentEnd line) := by
  have hlen := length_lineText h
  have hle : (t.lineText line).indentation.length ≤ (t.lineText line).length := (List.takeWhile_prefix _).length_le
  obtain ⟨hrun, hbehind⟩ := charAt_takeWhile_class (show isBlank nul = false from rfl) (t.lineText line)
  rw [lineIndentEnd, lineIndent_eq h]
  refine ⟨Nat.le_add_right _ _, by omega, fun i hi hlt => ?_, fun hlt => ?_⟩
  · obtain ⟨n, rfl⟩ := Nat.exists_eq_add_of_le hi
    rw [← charAt_lineText h (by omega)]
    exact hrun n (Nat.lt_of_add_lt_add_left hlt)
  · rw [← charAt_lineText h (by omega)]
    exact hbehind

theorem isTextEnd_trimEnd (h : line < t.lineCount) :
    t.IsTextEnd line (t.lineStart line + (t.lineText line).trimEnd.length) := by
  have hlen := length_lineText h
  have hle : (t.lineText line).trimEnd.length ≤ (t.lineText line).length := dropEndWhile_length_le isBlank _
  obtain ⟨hrun, hbefore⟩ := charAt_dropEndWhile isBlank (t.lineText line)
  rw [← trimEnd] at hrun hbefore
  refine ⟨Nat.le_add_right _ _, by omega, fun hpos => ?_, fun i hi hlt => ?_⟩
  · have hbehind : t.lineStart line + (t.lineText line).trimEnd.length - 1 =
      t.lineStart line + ((t.lineText line).trimEnd.length - 1) := by
      omega
    rw [hbehind, ← charAt_lineText h (by omega)]
    exact hbefore (by omega)
  · obtain ⟨n, rfl⟩ := Nat.exists_eq_add_of_le (show t.lineStart line ≤ i by omega)
    rw [← charAt_lineText h (by omega)]
    exact hrun n (by omega) (by omega)

end Text

/-! ## One press -/

namespace Session

/-- one press of a key that goes to and fro between `x` and `y`: whatever the modifiers, Control apart, it leads to
`target`, which is one of the two, and from each of the two the other one; with Shift the other end of the selection
stays, and nothing but the marks changes -/
structure Turn (s : Session) (key : Key) (x y target : Nat) : Prop where
  stop : target = x ∨ target = y
  forth : s.buffer.cursor = x → target = y
  back : s.buffer.cursor = y → target = x
  line : s.text.lineOf target = s.buffer.cursorLine
  press : ∀ mods : Modifiers, mods.control = false →
    (s.pressKey key mods).buffer =
      { s.buffer with marks := ⟨target, if mods.shift then s.buffer.marks.bound else target⟩ }

/-- nothing but the marks differs, and the cursor is on the same line -/
structure SameLine (s s' : Session) : Prop where
  frame : s'.buffer = { s.buffer with marks := s'.buffer.marks }
  line : s'.buffer.cursorLine = s.buffer.cursorLine

variable {s s' s'' : Session} {key : Key} {x y target : Nat}

theorem SameLine.refl (s : Session) : s.SameLine s :=
  ⟨rfl, rfl⟩

theorem SameLine.trans (h : s.SameLine s') (h' : s'.SameLine s'') : s.SameLine s'' := by
  refine ⟨?_, h'.line.trans h.line⟩
  rw [h'.frame, h.frame]

theorem SameLine.text (h : s.SameLine s') : s'.text = s.text := by
  rw [Session.text, h.frame, Session.text]

theorem Turn.sameLine (h : s.Turn key x y target) {mods : Modifiers} (hmods : mods.control = false) :
    s.SameLine (s.pressKey key mods) := by
  have hpress := h.press mods hmods
  constructor
  · rw [hpress]
  · rw [hpress]
    exact h.line

/-- a cursor move to an offset in the text -/
theorem moveCursor_eq (b : Buffer) (htarget : target ≤ b.text.length) (extend : Bool) :
    b.moveCursor target extend = { b with marks := ⟨target, if extend then b.marks.bound else target⟩ } := by
  have hclamp : b.clamp target = target := min_eq_left htarget
  cases extend with
  | false => simp only [Buffer.moveCursor, Bool.false_eq_true, if_false, Buffer.placeCursor, hclamp, Marks.both]
  | true => simp only [Buffer.moveCursor, if_true, Buffer.moveInsert, hclamp]

theorem pressKey_home (s : Session) {mods : Modifiers} (hmods : mods.control = false) :
    (s.pressKey .home mods).buffer = s.buffer.moveCursor s.buffer.homeTarget mods.shift := by
  have hkey : s.handleKey .home mods = (.handled, s.sync.mapBuffer fun b => b.moveCursor b.homeTarget mods.shift) := by
    simp [handleKey, handleBracket, handleBasic, Key.isUnindent, hmods]
  rw [pressKey, hkey, mapBuffer, sync_buffer]

theorem pressKey_stop (s : Session) {mods : Modifiers} (hmods : mods.control = false) :
    (s.pressKey .stop mods).buffer = s.buffer.moveCursor s.buffer.endTarget mods.shift := by
  have hkey : s.handleKey .stop mods = (.handled, s.sync.mapBuffer fun b => b.moveCursor b.endTarget mods.shift) := by
    simp [handleKey, handleBracket, handleBasic, Key.isUnindent, hmods]
  rw [pressKey, hkey, mapBuffer, sync_buffer]

/-- **One press**, for a target on the line of the cursor -/
theorem turn_of_target (hkey : ∀ mods : Modifiers, mods.control = false →
      (s.pressKey key mods).buffer = s.buffer.moveCursor target mods.shift)
    (hx : s.text.lineStart s.buffer.cursorLine ≤ x ∧ x ≤ s.text.lineEnd s.buffer.cursorLine)
    (hy : s.text.lineStart s.buffer.cursorLine ≤ y ∧ y ≤ s.text.lineEnd s.buffer.cursorLine)
    (hstop : target = x ∨ target = y) (hforth : s.buffer.cursor = x → target = y)
    (hback : s.buffer.cursor = y → target = x) :
    s.Turn key x y target := by
  have hon : s.text.lineStart s.buffer.cursorLine ≤ target ∧ target ≤ s.text.lineEnd s.buffer.cursorLine := by
    rcases hstop with rfl | rfl
    · exact hx
    · exact hy
  have hlength : target ≤ s.text.length := hon.2.trans (s.text.lineEnd_le_length _)
  refine ⟨hstop, hforth, hback, (Text.lineOf_eq_iff (s.text.lineOf_lt _) hlength).2 hon, fun mods hmods => ?_⟩
  rw [hkey mods hmods, moveCursor_eq _ hlength]

/-- **Home** goes to and fro between the start of the text of the line and the start of the line. -/
theorem turn_home (s : Session) :
    s.Turn .home (s.text.lineIndentEnd s.buffer.cursorLine)
      (s.text.lineStart s.buffer.cursorLine) s.buffer.homeTarget := by
  have hline : s.buffer.cursorLine < s.text.lineCount := s.text.lineOf_lt s.buffer.cursor
  have hfirst := Text.isTextStart_lineIndentEnd hline
  have hcases : s.buffer.homeTarget =
      if s.buffer.cursor > s.text.lineIndentEnd s.buffer.cursorLine || s.buffer.cursor =
        s.text.lineStart s.buffer.cursorLine
      then s.text.lineIndentEnd s.buffer.cursorLine else s.text.lineStart s.buffer.cursorLine := rfl
  refine turn_of_target (fun mods hmods => s.pressKey_home hmods) ⟨hfirst.start_le, hfirst.le_end⟩
    ⟨le_rfl, Text.lineStart_le_lineEnd hline⟩ ?_ (fun hcursor => ?_) (fun hcursor => ?_)
  · rw [hcases]
    split_ifs
    · exact .inl rfl
    · exact .inr rfl
  · -- from the start of the text on to the start of the line, unless they are the same
    rw [hcases, hcursor]
    split_ifs with h
    · simpa using h
    · rfl
  · rw [hcases, if_pos (by simp [hcursor])]

/-- **End** goes to and fro between the end of the text of the line and the end of the line. -/
theorem turn_stop (s : Session) :
    s.Turn .stop (s.text.lineStart s.buffer.cursorLine + (s.text.lineText s.buffer.cursorLine).trimEnd.length)
      (s.text.lineEnd s.buffer.cursorLine) s.buffer.endTarget := by
  have hline : s.buffer.cursorLine < s.text.lineCount := s.text.lineOf_lt s.buffer.cursor
  have hlast := Text.isTextEnd_trimEnd hline
  set last := s.text.lineStart s.buffer.cursorLine + (s.text.lineText s.buffer.cursorLine).trimEnd.length
  have hcases : s.buffer.endTarget = if s.buffer.cursor = last then s.text.lineEnd s.buffer.cursorLine else last := rfl
  refine turn_of_target (fun mods hmods => s.pressKey_stop hmods) ⟨hlast.start_le, hlast.le_end⟩
    ⟨Text.lineStart_le_lineEnd hline, le_rfl⟩ ?_ (fun hcursor => ?_) (fun hcursor => ?_)
  · rw [hcases]
    split_ifs
    · exact .inr rfl
    · exact .inl rfl
  · rw [hcases, if_pos hcursor]
  · rw [hcases, hcursor]
    split_ifs with h
    · exact h
    · rfl

/-! ## Any number of presses -/

/-- presses of one key, one after the other, with the modifiers held down at each -/
def presses (s : Session) (key : Key) (held : List Modifiers) : Session :=
  held.foldl (fun s mods => s.pressKey key mods) s

/-- **Presses of a key with two stops** stay on the line, and change nothing but the marks. -/
theorem presses_sameLine (hturn : ∀ s : Session, ∃ x y target, s.Turn key x y target) (s : Session)
    {held : List Modifiers} (hheld : ∀ mods ∈ held, mods.control = false) : s.SameLine (s.presses key held) := by
  induction held generalizing s with
  | nil => exact .refl s
  | cons mods held ih =>
    obtain ⟨x, y, target, hpress⟩ := hturn s
    have hfirst := hpress.sameLine (hheld mods List.mem_cons_self)
    have hrest := ih (s.pressKey key mods) fun mods' hmods' => hheld mods' (List.mem_cons_of_mem mods hmods')
    exact hfirst.trans hrest

/-- **Home and End alternate between their stops.** Home has the start of the text of the cursor's line and the start of
the line, End has the end of the text of the line and the end of the line. After any presses of the key without Control,
one more leads to one of its two stops, and from each of them to the other. All that has changed is where the marks are,
and the cursor is on the line it was on. -/
theorem home_and_end_alternate (s : Session) {held : List Modifiers} (hheld : ∀ mods ∈ held, mods.control = false) :
    let t := s.text
    let line := s.buffer.cursorLine
    let first := t.lineIndentEnd line
    let last := t.lineStart line + (t.lineText line).trimEnd.length
    (t.IsTextStart line first ∧ s.SameLine (s.presses .home held) ∧
        ∃ target, (s.presses .home held).Turn .home first (t.lineStart line) target) ∧
      t.IsTextEnd line last ∧ s.SameLine (s.presses .stop held) ∧
        ∃ target, (s.presses .stop held).Turn .stop last (t.lineEnd line) target := by
  intro t line first last
  have hline : line < t.lineCount := t.lineOf_lt s.buffer.cursor
  have hhome : s.SameLine (s.presses .home held) := presses_sameLine (fun s => ⟨_, _, _, s.turn_home⟩) s hheld
  have hstop : s.SameLine (s.presses .stop held) := presses_sameLine (fun s => ⟨_, _, _, s.turn_stop⟩) s hheld
  refine ⟨⟨Text.isTextStart_lineIndentEnd hline, hhome, (s.presses .home held).buffer.homeTarget, ?_⟩,
    Text.isTextEnd_trimEnd hline, hstop, (s.presses .stop held).buffer.endTarget, ?_⟩
  · have hturn := (s.presses .home held).turn_home
    rwa [hhome.text, hhome.line] at hturn
  · have hturn := (s.presses .stop held).turn_stop
    rwa [hstop.text, hstop.line] at hturn

/-- from within a word between blanks: Home with Shift selects up to the start of the word, and Home again, without
Shift, goes to the start of the line; End goes to the end of the word, and then to the end of the line -/
theorem stops_around_word_between_blanks :
    let s := (ofText "x\n\t ab \t".toList (.ofId (some "cpp")) .default).run [.buffer (.placeCursor 5)]
    let held : List Modifiers := [{ Modifiers.none with shift := true }]
    (∀ mods ∈ held, mods.control = false) ∧ s.text.IsTextStart 1 4 ∧ s.text.IsTextEnd 1 6 ∧
      (s.presses .home held).buffer = { s.buffer with marks := ⟨4, 5⟩ } ∧
      ((s.presses .home held).pressKey .home .none).buffer = { s.buffer with marks := ⟨2, 2⟩ } ∧
      (s.presses .stop held).buffer = { s.buffer with marks := ⟨6, 5⟩ } ∧
      ((s.presses .stop held).pressKey .stop .none).buffer = { s.buffer with marks := ⟨8, 8⟩ } := by
  intro s held
  have hheld : ∀ mods ∈ held, mods.control = false := by decide
  have hfirst : s.text.lineIndentEnd s.buffer.cursorLine = 4 := by decide
  have hlast : s.text.lineStart s.buffer.cursorLine + (s.text.lineText s.buffer.cursorLine).trimEnd.length =
    6 := by decide
  have hhome : (s.presses .home held).buffer.marks = ⟨4, 5⟩ := by decide
  have hstop : (s.presses .stop held).buffer.marks = ⟨6, 5⟩ := by decide
  obtain ⟨⟨hstart, hframe, start, hturn⟩, hend, hframe', stop, hturn'⟩ := home_and_end_alternate s hheld
  rw [hfirst] at hstart hturn
  rw [hlast] at hend hturn'
  -- the presses with Shift lead to the text of the line, so the next ones lead to the ends of the line
  have hstart_eq : start = 2 := (hturn.forth (congrArg Marks.insert hhome)).trans (by decide)
  have hstop_eq : stop = 8 := (hturn'.forth (congrArg Marks.insert hstop)).trans (by decide)
  have hframe := hframe.frame
  have hframe' := hframe'.frame
  have hpress := hturn.press .none rfl
  have hpress' := hturn'.press .none rfl
  rw [hhome] at hframe
  rw [hstop] at hframe'
  rw [hframe, hstart_eq] at hpress
  rw [hframe', hstop_eq] at hpress'
  exact ⟨hheld, hstart, hend, hframe, hpress, hframe', hpress'⟩

end Session

end CodeEditor
