import CodeEditor.Proofs.Text.Rows
import Mathlib.Order.Monotone.Basic
/-!
A text put into a line, at a column within its indentation.

Where the text has no breaks, everything follows from one equation: the ends of the breaks behind the place move on by
its length, the others stay (`InIndent.breakEnds_putIn`). So no line gets another number, and an offset stays on its
line wherever it is pushed (`InIndent.lineOf_putIn`).

`Extends` says what is left of a text when the same has been put into several of its lines. Each insertion
keeps it (`Extends.putIn`), so a whole run does (`extends_putInAll`); and the order of the insertions does not
matter (`putInAll_cons`).
-/

namespace CodeEditor.Text

/-- where an offset goes when `n` characters are put in at `place`: one at or behind it is pushed on -/
def pushOn (place n offset : Nat) : Nat :=
  if place ≤ offset then offset + n else offset

theorem pushOn_strictMono (place n : Nat) : StrictMono (pushOn place n) := by
  intro x y h
  simp only [pushOn]
  split_ifs <;> omega

/-- two insertions in either order -/
theorem pushOn_comm {p q : Nat} (h : p ≤ q) (n x : Nat) :
    pushOn p n (pushOn q n x) = pushOn (q + n) n (pushOn p n x) := by
  simp only [pushOn]
  split_ifs <;> omega

/-- the text with `u` put into a line at a column -/
def putIn (t : Text) (column : Nat) (u : Text) (line : Nat) : Text :=
  t.take (t.lineStart line + column) ++ u ++ t.drop (t.lineStart line + column)

/-- the column is within the indentation of the line, or at its end -/
structure InIndent (t : Text) (column line : Nat) : Prop where
  line_lt : line < t.lineCount
  le_indent : column ≤ (t.lineIndent line).length

/-! ## One insertion -/

section

variable {t u : Text} {column line : Nat}

theorem InIndent.indented (h : t.InIndent column line) : t.Indented column line :=
  indented_of_le h.line_lt h.le_indent

/-- a text in four parts: what is before the line, the blanks before the column, what is put in, and
what is behind the column -/
theorem putIn_eq (t : Text) (column : Nat) (u : Text) (line : Nat) :
    t.putIn column u line = t.take (t.lineStart line) ++
      (t.slice (t.lineStart line) (t.lineStart line + column) ++ (u ++ t.drop (t.lineStart line + column))) := by
  rw [putIn, slice, Nat.add_sub_cancel_left, List.take_add, List.append_assoc, List.append_assoc]

/-- the blanks before the column and what is put in are not the LF of a break before the line -/
theorem InIndent.not_joins_putIn (h : t.InIndent column line) (hu : ∀ c ∈ u, isBreak c = false) :
    ¬ Joins (t.take (t.lineStart line))
      (t.slice (t.lineStart line) (t.lineStart line + column) ++ (u ++ t.drop (t.lineStart line + column))) := by
  have hjoins := t.not_joins_lineStart h.line_lt
  rw [t.drop_eq_slice_append (t.lineStart line) column] at hjoins
  have hblank := h.indented.blank
  cases hw : t.slice (t.lineStart line) (t.lineStart line + column) with
  | nil =>
    cases u with
    | nil => rwa [hw] at hjoins
    | cons c u =>
      rintro ⟨-, hlf⟩
      obtain rfl : c = '\n' := by simpa using hlf
      have hbreak := hu '\n' List.mem_cons_self
      cases hbreak
  | cons c w =>
    rintro ⟨-, hlf⟩
    obtain rfl : c = '\n' := by simpa using hlf
    have hbreak := unbroken_of_allBlank hblank '\n' (by rw [hw]; exact List.mem_cons_self)
    cases hbreak

/-- **The breaks behind the place move on**, the others stay. -/
theorem InIndent.breakEnds_putIn (h : t.InIndent column line) (hu : ∀ c ∈ u, isBreak c = false) :
    (t.putIn column u line).breakEnds =
      t.breakEnds.map fun e => if t.lineStart line + column < e then e + u.length else e := by
  have hw := h.indented.length_blanks
  set p := t.lineStart line
  have hlen : (t.take p).length = p := t.length_take_lineStart line
  have hblank := unbroken_of_allBlank h.indented.blank
  rw [putIn_eq, breakEnds_append _ _ (h.not_joins_putIn hu), breakEnds_append _ _ (not_joins_of_unbroken hblank _),
    breakEnds_append _ _ (not_joins_of_unbroken hu _), IsLine.breakEnds_line hblank, IsLine.breakEnds_line hu, hlen, hw,
    h.indented.breakEnds_eq]
  simp only [List.nil_append, List.map_append, List.map_map]
  congr 1
  · conv_lhs => rw [← List.map_id (breakEnds (t.take p))]
    refine List.map_congr_left fun e he => ?_
    have hle := (isBreakEnd_of_mem he).le
    rw [if_neg (by omega), id_eq]
  · refine List.map_congr_left fun e he => ?_
    have hpos := (isBreakEnd_of_mem he).pos
    simp only [Function.comp_apply]
    rw [if_pos (by omega)]
    omega

/-- **Only the row of the line changes.** -/
theorem InIndent.rows_putIn (h : t.InIndent column line) (hu : ∀ c ∈ u, isBreak c = false) :
    (t.putIn column u line).rows = t.rows.set line
      ((t.lineText line).take column ++ u ++ (t.lineText line).drop column) := by
  have hblank := unbroken_of_allBlank h.indented.blank
  have hwidth := h.indented.length_blanks
  obtain ⟨before, first, behind, hlen, hbefore, hfirst, htext, hrows⟩ := h.indented.rows_cut
  have hrow := rows_unbroken_append hblank (rows_unbroken_append hu hfirst)
  rw [putIn_eq, rows_append (h.not_joins_putIn hu) hbefore hrow, htext, hrows, List.take_left' hwidth,
    List.drop_left' hwidth, ← hlen]
  simp

theorem InIndent.lineCount_putIn (h : t.InIndent column line) (hu : ∀ c ∈ u, isBreak c = false) :
    (t.putIn column u line).lineCount = t.lineCount := by
  rw [lineCount, h.breakEnds_putIn hu, List.length_map, lineCount]

theorem InIndent.lineText_putIn (h : t.InIndent column line) (hu : ∀ c ∈ u, isBreak c = false) {k : Nat}
    (hk : k < t.lineCount) :
    (t.putIn column u line).lineText k =
      if k = line then (t.lineText k).take column ++ u ++ (t.lineText k).drop column else t.lineText k := by
  refine lineText_of_rows ?_
  rw [h.rows_putIn hu, List.getElem?_set, getElem?_rows t hk, length_rows, if_pos h.line_lt]
  by_cases heq : k = line
  · subst heq
    rw [if_pos rfl, if_pos rfl]
  · rw [if_neg (Ne.symm heq), if_neg heq]

theorem InIndent.lineStart_putIn (h : t.InIndent column line) (hu : ∀ c ∈ u, isBreak c = false) {k : Nat}
    (hk : k < t.lineCount) :
    (t.putIn column u line).lineStart k =
      if t.lineStart line + column < t.lineStart k then t.lineStart k + u.length else t.lineStart k := by
  have hbreaks := h.breakEnds_putIn hu
  cases k with
  | zero => rw [lineStart_zero, lineStart_zero, if_neg (Nat.not_lt_zero _)]
  | succ k =>
    have hlt : k < t.breakEnds.length := by rw [lineCount] at hk; omega
    have hlt' : k < (t.putIn column u line).breakEnds.length := by rw [hbreaks, List.length_map]; exact hlt
    rw [lineStart_succ hlt', lineStart_succ hlt, List.getElem_of_eq hbreaks hlt', List.getElem_map]

/-- a line up to the changed one starts where it did -/
theorem InIndent.lineStart_putIn_of_le (h : t.InIndent column line) (hu : ∀ c ∈ u, isBreak c = false) {k : Nat}
    (hk : k ≤ line) :
    (t.putIn column u line).lineStart k = t.lineStart k := by
  have hle := t.lineStart_mono hk
  rw [h.lineStart_putIn hu (hk.trans_lt h.line_lt), if_neg (by omega)]

/-- a line behind the changed one moves on -/
theorem InIndent.lineStart_putIn_of_lt (h : t.InIndent column line) (hu : ∀ c ∈ u, isBreak c = false) {k : Nat}
    (hlt : line < k) (hk : k < t.lineCount) : (t.putIn column u line).lineStart k = t.lineStart k + u.length := by
  rw [h.lineStart_putIn hu hk, if_pos (h.indented.lt_lineStart hlt hk)]

/-- **An offset stays on its line.** -/
theorem InIndent.lineOf_putIn (h : t.InIndent column line) (hu : ∀ c ∈ u, isBreak c = false) (x : Nat) :
    (t.putIn column u line).lineOf (pushOn (t.lineStart line + column) u.length x) = t.lineOf x := by
  rw [lineOf, h.breakEnds_putIn hu, List.countP_map, lineOf]
  refine List.countP_congr fun e _ => ?_
  simp only [Function.comp_apply, decide_eq_true_eq]
  unfold pushOn
  split_ifs <;> omega

/-- the place is on the line -/
theorem InIndent.lineOf_place (h : t.InIndent column line) : t.lineOf (t.lineStart line + column) = line := by
  have hbefore := (t.breakEnds_cut h.line_lt).2
  have hlen := t.length_take_lineStart line
  rw [lineOf, h.indented.breakEnds_eq, List.countP_append, List.countP_eq_length.2, List.countP_eq_zero.2, hbefore,
    Nat.add_zero]
  · intro e he
    obtain ⟨d, hd, rfl⟩ := List.mem_map.1 he
    have hpos := (isBreakEnd_of_mem hd).pos
    simp only [decide_eq_true_eq]
    omega
  · intro e he
    have hle := (isBreakEnd_of_mem he).le
    simp only [decide_eq_true_eq]
    omega

/-- another line keeps its indentation -/
theorem InIndent.putIn_of_ne {k : Nat} (hk : t.InIndent column k) (h : t.InIndent column line)
    (hu : ∀ c ∈ u, isBreak c = false) (hne : k ≠ line) : (t.putIn column u line).InIndent column k := by
  have hlt : k < (t.putIn column u line).lineCount := by rw [h.lineCount_putIn hu]; exact hk.line_lt
  refine ⟨hlt, ?_⟩
  rw [lineIndent_eq hlt, h.lineText_putIn hu hk.line_lt, if_neg hne, ← lineIndent_eq hk.line_lt]
  exact hk.le_indent

/-- what is put into two lines can be put into the second one first -/
theorem InIndent.putIn_comm {k : Nat} (h : t.InIndent column line) (hk : t.InIndent column k)
    (hu : ∀ c ∈ u, isBreak c = false) (hlt : line < k) :
    (t.putIn column u line).putIn column u k = (t.putIn column u k).putIn column u line := by
  have hpos := h.indented.lt_lineStart hlt hk.line_lt
  have hle := h.indented.le_length
  have hk_le := t.lineStart_le_length k
  have hk_len := hk.indented.le_length
  have hstart := h.lineStart_putIn_of_lt hu hlt hk.line_lt
  have hstart' := hk.lineStart_putIn_of_le hu hlt.le
  set p := t.lineStart line + column with hp
  set q := t.lineStart k + column with hq
  -- both are what is before the first place, between the two and behind the second, with `u` at each seam
  have hfirst : (t.putIn column u line).putIn column u k = t.take p ++ u ++ t.slice p q ++ u ++ t.drop q := by
    have hlen : (t.take p ++ u).length = p + u.length := by rw [List.length_append, List.length_take]; omega
    rw [putIn, hstart, putIn, ← hp, show t.lineStart k + u.length + column = (t.take p ++ u).length + (q - p) by omega,
      List.take_length_add_append, List.drop_length_add_append, List.drop_drop, slice, Nat.add_sub_cancel' (by omega)]
  have hsecond : (t.putIn column u k).putIn column u line = t.take p ++ u ++ t.slice p q ++ u ++ t.drop q := by
    rw [putIn, hstart', putIn, ← hp, ← hq, List.append_assoc (t.take q),
      List.take_append_of_le_length (by rw [List.length_take]; omega),
      List.drop_append_of_le_length (by rw [List.length_take]; omega), List.take_take, min_eq_left (by omega),
      List.drop_take, slice]
    simp only [List.append_assoc]
  rw [hfirst, hsecond]

theorem charAt_putIn (t : Text) (u : Text) (hp : t.lineStart line + column ≤ t.length) (i : Nat) :
    (t.putIn column u line).charAt i =
      if i < t.lineStart line + column then t.charAt i
      else if i < t.lineStart line + column + u.length then u.charAt (i - (t.lineStart line + column))
      else t.charAt (i - u.length) := by
  have hlen : (t.take (t.lineStart line + column)).length = t.lineStart line + column := by rw [List.length_take]; omega
  simp only [putIn, charAt, List.getD_eq_getElem?_getD, List.getElem?_append, List.length_append, hlen,
    List.getElem?_drop]
  by_cases hbefore : i < t.lineStart line + column
  · rw [if_pos (by omega), if_pos hbefore, if_pos hbefore, List.getElem?_take_of_lt hbefore]
  · rw [if_neg hbefore, if_neg hbefore]
    split_ifs
    · rfl
    · congr 2
      omega

/-- away from the place, an offset follows an LF as it did -/
theorem InIndent.startsLine_putIn (h : t.InIndent column line) {x : Nat} (hx : x ≠ t.lineStart line + column) :
    (t.putIn column u line).startsLine (pushOn (t.lineStart line + column) u.length x) = t.startsLine x := by
  have hchar := charAt_putIn t u h.indented.le_length
  unfold pushOn
  split_ifs with hle
  · obtain ⟨y, rfl⟩ : ∃ y, x = y + 1 := ⟨x - 1, by omega⟩
    rw [Nat.add_right_comm y 1, startsLine, startsLine, hchar, if_neg (by omega), if_neg (by omega),
      Nat.add_sub_cancel]
  · cases x with
    | zero => rfl
    | succ y => rw [startsLine, startsLine, hchar, if_pos (by omega)]

/-- behind what is put in, no line starts -/
theorem InIndent.startsLine_of_putIn (h : t.InIndent column line) (hu : ∀ c ∈ u, isBreak c = false) {x : Nat}
    (hx : (t.putIn column u line).startsLine (pushOn (t.lineStart line + column) u.length x) = true) :
    t.startsLine x = true := by
  by_cases hne : x = t.lineStart line + column
  · subst hne
    rcases List.eq_nil_or_concat u with rfl | ⟨v, c, rfl⟩
    · rwa [putIn, List.append_nil, List.take_append_drop, List.length_nil, pushOn, if_pos le_rfl] at hx
    · rw [List.concat_eq_append] at hu hx
      have hc : c = '\n' := by
        rw [pushOn, if_pos le_rfl, List.length_append, List.length_singleton, ← Nat.add_assoc, startsLine,
          charAt_putIn t _ h.indented.le_length, if_neg (by omega), if_pos (by simp), Nat.add_sub_cancel_left,
          charAt_seam] at hx
        simpa using hx
      have hbreak := hu c (by simp)
      rw [hc] at hbreak
      cases hbreak
  · rwa [h.startsLine_putIn hne] at hx

end

/-! ## Several insertions -/

/-- `t'` is `t` with `u` put into some lines at a column; `push` says where the offsets of `t` are in it -/
structure Extends (t t' : Text) (column : Nat) (u : Text) (lines : List Nat) (push : Nat → Nat) : Prop where
  lineCount : t'.lineCount = t.lineCount
  lineText : ∀ k < t.lineCount, t'.lineText k =
    if k ∈ lines then (t.lineText k).take column ++ u ++ (t.lineText k).drop column else t.lineText k
  strictMono : StrictMono push
  lineOf : ∀ x, t'.lineOf (push x) = t.lineOf x
  lineStart : ∀ k < t.lineCount, k ∉ lines → t'.lineStart k = push (t.lineStart k)
  startsLine : ∀ x, t.lineOf x ∉ lines → t'.startsLine (push x) = t.startsLine x
  startsLine_of : ∀ x, t'.startsLine (push x) = true → t.startsLine x = true

theorem Extends.refl (t : Text) (column : Nat) (u : Text) : t.Extends t column u [] id where
  lineCount := rfl
  lineText k _ := by rw [if_neg List.not_mem_nil]
  strictMono := strictMono_id
  lineOf _ := rfl
  lineStart _ _ _ := rfl
  startsLine _ _ := rfl
  startsLine_of _ h := h

/-- **One more insertion**, before the others -/
theorem Extends.putIn {t t' u : Text} {column line : Nat} {lines : List Nat} {push : Nat → Nat}
    (h : (t.putIn column u line).Extends t' column u lines push) (hline : t.InIndent column line)
    (hu : ∀ c ∈ u, isBreak c = false) (hnot : line ∉ lines) :
    t.Extends t' column u (line :: lines) (push ∘ pushOn (t.lineStart line + column) u.length) where
  lineCount := h.lineCount.trans (hline.lineCount_putIn hu)
  lineText k hk := by
    rw [h.lineText k (by rwa [hline.lineCount_putIn hu]), hline.lineText_putIn hu hk]
    by_cases hkl : k = line
    · subst hkl
      rw [if_neg hnot, if_pos rfl, if_pos List.mem_cons_self]
    · simp only [List.mem_cons, hkl, false_or, if_false]
  strictMono := h.strictMono.comp (pushOn_strictMono _ _)
  lineOf x := (h.lineOf _).trans (hline.lineOf_putIn hu x)
  lineStart k hk hmem := by
    obtain ⟨hne, hmem⟩ := not_or.1 (List.mem_cons.not.1 hmem)
    have hplace : t.lineStart k ≠ t.lineStart line + column := by
      intro heq
      rw [← hline.lineOf_place, ← heq, lineOf_lineStart hk] at hne
      exact hne rfl
    rw [h.lineStart k (by rwa [hline.lineCount_putIn hu]) hmem, hline.lineStart_putIn hu hk,
      Function.comp_apply, pushOn]
    congr 1
    split_ifs <;> omega
  startsLine x hx := by
    obtain ⟨hne, hmem⟩ := not_or.1 (List.mem_cons.not.1 hx)
    have hplace : x ≠ t.lineStart line + column := by
      rintro rfl
      exact hne hline.lineOf_place
    rw [Function.comp_apply, h.startsLine _ (by rwa [hline.lineOf_putIn hu]), hline.startsLine_putIn hplace]
  startsLine_of x hx := hline.startsLine_of_putIn hu (h.startsLine_of _ hx)

section

variable {t t' u : Text} {column : Nat} {lines : List Nat} {push : Nat → Nat} (h : t.Extends t' column u lines push)
include h

/-- no line starts behind the place where its start went -/
theorem Extends.lineStart_le {k : Nat} (hk : k < t.lineCount) : t'.lineStart k ≤ push (t.lineStart k) := by
  have hle := t'.lineStart_lineOf_le (push (t.lineStart k))
  rwa [h.lineOf, lineOf_lineStart hk] at hle

/-- another line keeps its indentation -/
theorem Extends.inIndent {k : Nat} (hk : t.InIndent column k) (hnot : k ∉ lines) : t'.InIndent column k := by
  have hlt : k < t'.lineCount := by rw [h.lineCount]; exact hk.line_lt
  refine ⟨hlt, ?_⟩
  rw [lineIndent_eq hlt, h.lineText k hk.line_lt, if_neg hnot, ← lineIndent_eq hk.line_lt]
  exact hk.le_indent

end

end CodeEditor.Text
