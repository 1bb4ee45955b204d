import CodeEditor.Proofs.Text.LineStarts
import CodeEditor.Proofs.Text.Rows
/-!
Offsets and positions.

Offsets and positions name the same places of a text: a position is a line that is there and a column that is on it
(`HasPlace`), and the offsets `0..length` are, in this order, the places of the text, line after line and column after
column (`positions_correspond_to_offsets`). That holds whatever the breaks are: an offset is on the line `k` exactly
from the start of the line to its end (`lineOf_eq_iff`), also where the end is between a CR and its LF.

The way from a position to an offset is a sum of unsigned 64-bit words. It is the sum of numbers unless it reaches 2^64,
and then it is less than each of its terms (`word64_lt_left`).
-/

namespace CodeEditor

/-! ## Sums of words -/

section

variable {m n : Nat}

theorem word64_of_lt (h : n < UInt64.size) : word64 n = n :=
  Nat.mod_eq_of_lt h

/-- a sum of two words that is none loses 2^64 -/
theorem word64_add_of_size_le (hm : m < UInt64.size) (hn : n < UInt64.size) (h : UInt64.size ≤ m + n) :
    word64 (m + n) = m + n - UInt64.size := by
  rw [word64, Nat.mod_eq_sub_mod h]
  apply Nat.mod_eq_of_lt
  omega

/-- so it is less than its terms -/
theorem word64_lt_left (hm : m < UInt64.size) (hn : n < UInt64.size) (h : UInt64.size ≤ m + n) :
    word64 (m + n) < m := by
  rw [word64_add_of_size_le hm hn h]
  omega

end

theorem Position.swap_compare (p q : Position) : (p.compare q).swap = q.compare p := by
  simp [Position.compare, Ordering.swap_then, Nat.compare_swap]

namespace Text

variable {t : Text} {o k : Nat} {p : Position}

/-! ## Lines of offsets -/

/-- **The offsets of a line** are those from its start to its end. -/
theorem lineOf_eq_iff (hk : k < t.lineCount) (ho : o ≤ t.length) :
    t.lineOf o = k ↔ t.lineStart k ≤ o ∧ o ≤ t.lineEnd k := by
  constructor
  · rintro rfl
    exact ⟨t.lineStart_lineOf_le o, le_lineEnd_lineOf ho⟩
  · rintro ⟨hstart, hend⟩
    have hle : k ≤ t.lineOf o := (lineStart_le_iff hk).1 hstart
    -- were the offset on a later line, it would be behind the end of this one
    by_contra hne
    have hlt : k < t.lineOf o := by omega
    have hbehind : t.lineEnd k < t.lineStart (t.lineOf o) := lineEnd_lt_lineStart hlt (t.lineOf_lt o)
    have hline : t.lineStart (t.lineOf o) ≤ o := t.lineStart_lineOf_le o
    omega

/-! ## Positions -/

/-- the line is there, and the column is on it -/
structure HasPlace (t : Text) (p : Position) : Prop where
  line_lt : p.line < t.lineCount
  column_le : p.column ≤ t.lineEnd p.line - t.lineStart p.line

instance (t : Text) (p : Position) : Decidable (t.HasPlace p) :=
  decidable_of_iff (p.line < t.lineCount ∧ p.column ≤ t.lineEnd p.line - t.lineStart p.line)
    ⟨fun h => ⟨h.1, h.2⟩, fun h => ⟨h.1, h.2⟩⟩

theorem positionOf_eq (ho : o ≤ t.length) : t.positionOf o = ⟨t.lineOf o, o - t.lineStart (t.lineOf o)⟩ := by
  rw [positionOf, min_eq_left ho]

theorem hasPlace_positionOf (ho : o ≤ t.length) : t.HasPlace (t.positionOf o) := by
  rw [positionOf_eq ho]
  refine ⟨t.lineOf_lt o, ?_⟩
  have hend : o ≤ t.lineEnd (t.lineOf o) := le_lineEnd_lineOf ho
  dsimp only
  omega

/-- as long as the sum is a word, the offset of a position is the smaller one of the sum and the end of the line -/
theorem offsetOf_of_lt (hp : p.line < t.lineCount) (hsum : t.lineStart p.line + p.column < UInt64.size) :
    t.offsetOf p = min (t.lineStart p.line + p.column) (t.lineEnd p.line) := by
  rw [offsetOf, if_pos hp, word64_of_lt hsum]

/-- else it is an offset before the line -/
theorem offsetOf_of_size_le (ht : t.length < UInt64.size) (hp : p.line < t.lineCount) (hcolumn : p.column < UInt64.size)
    (hsum : UInt64.size ≤ t.lineStart p.line + p.column) :
    t.offsetOf p = t.lineStart p.line + p.column - UInt64.size ∧ t.offsetOf p < t.lineStart p.line := by
  have hstart : t.lineStart p.line < UInt64.size := (t.lineStart_le_length _).trans_lt ht
  have hlt := word64_lt_left hstart hcolumn hsum
  have hend : t.lineStart p.line ≤ t.lineEnd p.line := lineStart_le_lineEnd hp
  have hoffset : t.offsetOf p = word64 (t.lineStart p.line + p.column) := by
    rw [offsetOf, if_pos hp]
    exact min_eq_left (hlt.le.trans hend)
  exact ⟨hoffset.trans (word64_add_of_size_le hstart hcolumn hsum), hoffset.trans_lt hlt⟩

theorem offsetOf_le_length (t : Text) (p : Position) : t.offsetOf p ≤ t.length := by
  rw [offsetOf]
  split_ifs
  · exact (min_le_right _ _).trans (t.lineEnd_le_length _)
  · exact le_rfl

/-- the offset of a place is its column behind the start of its line -/
theorem HasPlace.offsetOf_eq (h : t.HasPlace p) (ht : t.length < UInt64.size) :
    t.offsetOf p = t.lineStart p.line + p.column := by
  have hle : t.lineStart p.line ≤ t.lineEnd p.line := lineStart_le_lineEnd h.line_lt
  have hlength : t.lineEnd p.line ≤ t.length := t.lineEnd_le_length _
  have hcolumn := h.column_le
  rw [offsetOf_of_lt h.line_lt (by omega)]
  apply min_eq_left
  omega

theorem HasPlace.positionOf_offsetOf (h : t.HasPlace p) (ht : t.length < UInt64.size) :
    t.positionOf (t.offsetOf p) = p := by
  have hle : t.lineStart p.line ≤ t.lineEnd p.line := lineStart_le_lineEnd h.line_lt
  have hcolumn := h.column_le
  have hlength : t.offsetOf p ≤ t.length := t.offsetOf_le_length p
  have hoffset : t.offsetOf p = t.lineStart p.line + p.column := h.offsetOf_eq ht
  have hline : t.lineOf (t.offsetOf p) = p.line := by
    rw [lineOf_eq_iff h.line_lt hlength, hoffset]
    omega
  rw [positionOf_eq hlength, hline, hoffset, Nat.add_sub_cancel_left]

theorem offsetOf_positionOf (ht : t.length < UInt64.size) (ho : o ≤ t.length) : t.offsetOf (t.positionOf o) = o := by
  have hstart : t.lineStart (t.lineOf o) ≤ o := t.lineStart_lineOf_le o
  rw [(hasPlace_positionOf ho).offsetOf_eq ht, positionOf_eq ho]
  exact Nat.add_sub_cancel' hstart

/-! ## The order of positions -/

/-- **A later offset has a later position**, on a later line or further on in its line. -/
theorem compare_positionOf_of_lt {o' : Nat} (hlt : o < o') (ho' : o' ≤ t.length) :
    (t.positionOf o).compare (t.positionOf o') = .lt := by
  rw [positionOf_eq (hlt.le.trans ho'), positionOf_eq ho']
  have hstart : t.lineStart (t.lineOf o) ≤ o := t.lineStart_lineOf_le o
  rcases (t.lineOf_mono hlt.le).lt_or_eq with hline | hline
  · rw [Position.compare, Nat.compare_eq_lt.2 hline]
    rfl
  · have hcolumn : o - t.lineStart (t.lineOf o) < o' - t.lineStart (t.lineOf o) := by omega
    rw [Position.compare, hline, Nat.compare_eq_eq.2 rfl, ← hline, Nat.compare_eq_lt.2 hcolumn]
    rfl

/-- positions compare as their offsets do -/
theorem compare_positionOf {o' : Nat} (ho : o ≤ t.length) (ho' : o' ≤ t.length) :
    (t.positionOf o).compare (t.positionOf o') = Ord.compare o o' := by
  rcases lt_trichotomy o o' with hlt | rfl | hgt
  · rw [compare_positionOf_of_lt hlt ho', Nat.compare_eq_lt.2 hlt]
  · simp [Position.compare]
  · rw [← Position.swap_compare, compare_positionOf_of_lt hgt ho, Nat.compare_eq_gt.2 hgt]
    rfl

/-- **Positions correspond to offsets**, in the same order. In a text that has fewer than 2^64 characters, as every text
in memory has, the offsets `0..length` have their positions in increasing order, by line and then by column; each of
them is a place of the text and leads back to its offset; and every place of the text is the position of its offset. -/
theorem positions_correspond_to_offsets (t : Text) (ht : t.length < UInt64.size) :
    (∀ o ≤ t.length, ∀ o' ≤ t.length, (t.positionOf o).compare (t.positionOf o') = Ord.compare o o') ∧
      (∀ o ≤ t.length, t.HasPlace (t.positionOf o) ∧ t.offsetOf (t.positionOf o) = o) ∧
      (∀ p, t.HasPlace p → t.offsetOf p ≤ t.length ∧ t.positionOf (t.offsetOf p) = p) := by
  refine ⟨fun o ho o' ho' => compare_positionOf ho ho', fun o ho => ?_, fun p hp => ?_⟩
  · exact ⟨hasPlace_positionOf ho, offsetOf_positionOf ht ho⟩
  · exact ⟨t.offsetOf_le_length p, hp.positionOf_offsetOf ht⟩

/-- a text with breaks of one and of two characters: the offset between CR and LF is the last place of its line, and the
next line starts behind the LF -/
theorem positions_around_crlf :
    let t : Text := "a\x0cb\r\n\u2028\n\rc".toList
    t.length < UInt64.size ∧ t.lineCount = 6 ∧
      (t.positionOf 4).compare (t.positionOf 5) = .lt ∧ t.offsetOf (t.positionOf 4) = 4 ∧
      t.positionOf 4 = ⟨1, 2⟩ ∧ t.positionOf (t.offsetOf ⟨1, 2⟩) = ⟨1, 2⟩ ∧ t.positionOf 5 = ⟨2, 0⟩ := by
  intro t
  have hlength : t.length < UInt64.size := by decide
  have hplace : t.HasPlace ⟨1, 2⟩ := by decide
  obtain ⟨horder, hback, hforth⟩ := positions_correspond_to_offsets t hlength
  have hlt : (t.positionOf 4).compare (t.positionOf 5) = .lt :=
    (horder 4 (by decide) 5 (by decide)).trans (Nat.compare_eq_lt.2 (by decide))
  exact ⟨hlength, by decide, hlt, (hback 4 (by decide)).2, by decide, (hforth _ hplace).2, by decide⟩

end Text

end CodeEditor
