import CodeEditor.Cursor
import CodeEditor.Proofs.Session.Run
import CodeEditor.Proofs.Text.Positions
/-!
Places given by numbers: a line and a column, or a number of steps.

A column too large for its line means the end of the line, and steps past the end of the text stay at it. Both are read
off a sum, and the sum is one of words. As long as it is less than 2^64 all is as said (`offsetOf_of_lt`,
`Cursor.forwardBy_of_lt`). Otherwise it wraps: the column leads to an offset before its line, and the steps lead back
(`places_clamp_unless_they_wrap`). Steps backward are subtracted, and there is nothing to wrap
(`Cursor.moves_backward`).
-/

namespace CodeEditor

namespace Cursor

/-- `count` moves one after another; the flag is that of the last one -/
def moves (move : Cursor → Bool × Cursor) : Nat → Cursor → Bool × Cursor
  | 0, c => (false, c)
  | count + 1, c => move (moves move count c).2

variable {c : Cursor} {count : Nat}

/-- **Steps forward** stop at the end of the text, and the last one tells whether they did. -/
theorem moves_forward (h : c.offset ≤ c.text.length) (count : Nat) :
    moves forward count c =
      (0 < count && min (c.offset + count) c.text.length < c.text.length,
        { c with offset := min (c.offset + count) c.text.length }) := by
  induction count with
  | zero =>
    rw [moves, Nat.add_zero, min_eq_left h]
    rfl
  | succ count ih =>
    rw [moves, ih]
    dsimp only
    rw [forward]
    dsimp only
    rcases Nat.lt_or_ge (c.offset + count) c.text.length with hlt | hge
    · -- the step is made, and it may be the one that reaches the end
      rw [min_eq_left hlt.le, if_pos hlt, min_eq_left (show c.offset + (count + 1) ≤ c.text.length from hlt),
        Nat.add_assoc]
      simp
    · rw [min_eq_right hge, if_neg (Nat.lt_irrefl _),
        min_eq_right (show c.text.length ≤ c.offset + (count + 1) by omega)]
      simp

/-- **Steps backward** stop at the start of the text: at once is one by one. -/
theorem moves_backward (c : Cursor) (count : Nat) : moves backward count c = c.backwardBy count := by
  induction count with
  | zero => rfl
  | succ count ih =>
    rw [moves, ih, backwardBy, backward, backwardBy]
    dsimp only
    rcases Nat.lt_or_ge count c.offset with hlt | hge
    · rw [if_neg (by omega), Nat.sub_sub]
      simp [Nat.succ_le_of_lt hlt]
    · rw [if_pos (by omega), Nat.sub_eq_zero_of_le hge, Nat.sub_eq_zero_of_le (by omega)]
      simp [Nat.not_le.2 (Nat.lt_succ_of_le hge)]

/-- as long as the sum is a word, many steps at once are the same steps one by one -/
theorem forwardBy_of_lt (h : c.offset ≤ c.text.length) (hsum : c.offset + count < UInt64.size) :
    c.forwardBy count = moves forward count c := by
  rw [moves_forward h, forwardBy, word64_of_lt hsum]

/-- else they lead back, and the flag says that they do not end at the end -/
theorem forwardBy_of_size_le (h : c.offset ≤ c.text.length) (ht : c.text.length < UInt64.size)
    (hcount : count < UInt64.size) (hsum : UInt64.size ≤ c.offset + count) :
    c.forwardBy count = (true, { c with offset := c.offset + count - UInt64.size }) ∧
    c.offset + count - UInt64.size < c.offset := by
  have hoffset : c.offset < UInt64.size := h.trans_lt ht
  have hword := word64_add_of_size_le hoffset hcount hsum
  have hlt : c.offset + count - UInt64.size < c.offset := by omega
  have hpos : 0 < count := by omega
  refine ⟨?_, hlt⟩
  rw [forwardBy, hword, min_eq_left (hlt.le.trans h)]
  simp [hpos, hlt.trans_le h]

theorem forwardBy_eq_moves_iff (h : c.offset ≤ c.text.length) (ht : c.text.length < UInt64.size)
    (hcount : count < UInt64.size) :
    c.forwardBy count = moves forward count c ↔ c.offset + count < UInt64.size := by
  refine ⟨fun heq => ?_, forwardBy_of_lt h⟩
  by_contra hsum
  have hwraps := (forwardBy_of_size_le h ht hcount (Nat.not_lt.1 hsum)).1
  -- one by one, the steps would end at the end, and say so
  have hend : min (c.offset + count) c.text.length = c.text.length := min_eq_right (by omega)
  rw [hwraps, moves_forward h, hend] at heq
  simp at heq

end Cursor

namespace Text

variable {t : Text} {p : Position}

theorem offsetOf_eq_min_iff (ht : t.length < UInt64.size) (hp : p.line < t.lineCount)
    (hcolumn : p.column < UInt64.size) :
    t.offsetOf p = min (t.lineStart p.line + p.column) (t.lineEnd p.line) ↔
      t.lineStart p.line + p.column < UInt64.size := by
  refine ⟨fun heq => ?_, offsetOf_of_lt hp⟩
  by_contra hsum
  have hbefore := (offsetOf_of_size_le ht hp hcolumn (Nat.not_lt.1 hsum)).2
  have hline : t.lineStart p.line ≤ t.lineEnd p.line := lineStart_le_lineEnd hp
  rw [heq] at hbefore
  omega

end Text

namespace Session

/-- on a line that is there, the cursor goes to the offset of the position, and nothing else changes -/
theorem placeAtLine_eq (s : Session) {line : Nat} (hline : line < s.text.lineCount) (column : Nat) :
    s.placeAtLine line column =
      { s with buffer := { s.buffer with marks := .both (s.text.offsetOf ⟨line, column⟩) } } := by
  have hlast : min line (s.buffer.text.lineCount - 1) = line := min_eq_left (Nat.le_sub_one_of_lt hline)
  have hclamp : s.buffer.clamp (s.buffer.text.offsetOf ⟨line, column⟩) = s.buffer.text.offsetOf ⟨line, column⟩ :=
    min_eq_left (s.text.offsetOf_le_length _)
  rw [placeAtLine, mapBuffer, hlast, Buffer.placeCursor, hclamp]
  rfl

/-- **Places clamp unless a sum wraps.** For every line that is there and every column: the offset is the smaller one of
start plus column and the end of the line exactly if that sum is less than 2^64; otherwise it is what the sum has beyond
2^64, and that is before the line. In either case the cursor is placed there. For every place and every number of steps:
steps forward at once are the same steps one by one, with the same flag, exactly if offset plus steps is less than 2^64;
otherwise they lead back, and the flag is set. Steps backward at once always are the same steps one by one. -/
theorem places_clamp_unless_they_wrap (s : Session) (hlength : s.text.length < UInt64.size) {column count : Nat}
    (hcolumn : column < UInt64.size) (hcount : count < UInt64.size) (line offset : Nat) :
    let t := s.text
    let p : Position := ⟨line, column⟩
    let c := Cursor.ofOffset t offset
    (line < t.lineCount →
      (t.offsetOf p = min (t.lineStart line + column) (t.lineEnd line) ↔ t.lineStart line + column < UInt64.size) ∧
      (UInt64.size ≤ t.lineStart line + column →
        t.offsetOf p = t.lineStart line + column - UInt64.size ∧ t.offsetOf p < t.lineStart line) ∧
      (s.placeAtLine line column).buffer = { s.buffer with marks := .both (t.offsetOf p) }) ∧
    (c.forwardBy count = Cursor.moves Cursor.forward count c ↔ c.offset + count < UInt64.size) ∧
    (UInt64.size ≤ c.offset + count →
      c.forwardBy count = (true, { c with offset := c.offset + count - UInt64.size }) ∧
      c.offset + count - UInt64.size < c.offset) ∧
    c.backwardBy count = Cursor.moves Cursor.backward count c := by
  intro t p c
  have hoffset : c.offset ≤ c.text.length := min_le_right _ _
  refine ⟨fun hline => ⟨?_, ?_, ?_⟩, ?_, ?_, ?_⟩
  · exact Text.offsetOf_eq_min_iff hlength hline hcolumn
  · exact Text.offsetOf_of_size_le (p := p) hlength hline hcolumn
  · rw [s.placeAtLine_eq hline]
  · exact Cursor.forwardBy_eq_moves_iff hoffset hlength hcount
  · exact Cursor.forwardBy_of_size_le hoffset hlength hcount
  · exact (c.moves_backward count).symm

/-- a column far behind the second line is its end, and so many steps lead to the end of the text -/
theorem places_clamp_in_two_lines :
    let s := ofText "a\nb\nc".toList (.ofId none) .default
    let far := UInt64.size - 3
    let c := Cursor.ofOffset s.text 1
    (s.text.length < UInt64.size ∧ far < UInt64.size ∧ 1 < s.text.lineCount) ∧ s.text.offsetOf ⟨1, far⟩ = 3 ∧
      (s.placeAtLine 1 far).buffer.marks = .both 3 ∧ c.forwardBy far = Cursor.moves Cursor.forward far c ∧
      c.backwardBy far = Cursor.moves Cursor.backward far c := by
  intro s far c
  have hlength : s.text.length < UInt64.size := by decide
  have hfar : far < UInt64.size := by decide
  have hline : 1 < s.text.lineCount := by decide
  obtain ⟨hplace, hforward, -, hbackward⟩ := places_clamp_unless_they_wrap s hlength hfar hfar 1 1
  obtain ⟨hoffset, -, hcursor⟩ := hplace hline
  have hend : s.text.offsetOf ⟨1, far⟩ = 3 := (hoffset.2 (by decide)).trans (by decide)
  refine ⟨⟨hlength, hfar, hline⟩, hend, ?_, hforward.2 (by decide), hbackward⟩
  rw [hcursor, hend]

/-- the largest column of the second line leads to the first one, and as many steps from there lead back -/
theorem wrapped_sums_lead_back :
    let s := ofText "a\nb".toList (.ofId none) .default
    let most := UInt64.size - 1
    let c := Cursor.ofOffset s.text 1
    s.Reachable ∧ 1 < s.text.lineCount ∧ min (s.text.lineStart 1 + most) (s.text.lineEnd 1) = 3 ∧
    s.text.offsetOf ⟨1, most⟩ = 1 ∧
      (s.placeAtLine 1 most).buffer.cursor = 1 ∧
      Cursor.moves Cursor.forward most c = (false, Cursor.ofOffset s.text 3) ∧
      c.forwardBy most = (true, Cursor.ofOffset s.text 0) := by
  intro s most c
  have hs : s.Reachable := ⟨_, _, _, [], rfl⟩
  have hmoves : Cursor.moves Cursor.forward most c = (false, Cursor.ofOffset s.text 3) :=
    (Cursor.moves_forward (by decide) most).trans (by decide +kernel)
  exact ⟨hs, by decide, by decide, by decide, by decide, hmoves, by decide⟩

end Session

end CodeEditor
