import CodeEditor.Proofs.Text.Outdent
import CodeEditor.Proofs.Text.Pieces
/-!
Columns of a text.

The line of an offset starts at the last break end up to it (`lineStart_lineOf`). So a column depends on the text
up to its offset only (`column_of_take_eq`), and a character that is no blank stands behind the indentation of its
line (`lineIndentEnd_le`).
-/

namespace CodeEditor.Text

variable {a z t u : Text} {o : Nat}

/-! ## Columns -/

/-- in a strictly growing list, the entries up to a bound are a first part of it -/
theorem filter_le_eq_take {l : List Nat} (h : l.Pairwise (· < ·)) (o : Nat) :
    l.filter (· ≤ o) = l.take (l.countP (· ≤ o)) := by
  induction l with
  | nil => rfl
  | cons x l ih =>
    obtain ⟨hx, hl⟩ := List.pairwise_cons.1 h
    by_cases hxo : x ≤ o
    · rw [List.filter_cons_of_pos (by simpa using hxo), List.countP_cons_of_pos (by simpa using hxo),
        List.take_succ_cons, ih hl]
    · have hbeyond : ∀ y ∈ x :: l, ¬ y ≤ o := by
        intro y hy
        rcases List.mem_cons.1 hy with rfl | hy
        · exact hxo
        · have hlt := hx y hy
          omega
      have hnone : (x :: l).filter (· ≤ o) = [] := List.filter_eq_nil_iff.2 fun y hy => by simpa using hbeyond y hy
      have hzero : (x :: l).countP (· ≤ o) = 0 := List.countP_eq_zero.2 fun y hy => by simpa using hbeyond y hy
      rw [hnone, hzero, List.take_zero]

/-- the line of an offset starts at the last break end up to it -/
theorem lineStart_lineOf (t : Text) (o : Nat) :
    t.lineStart (t.lineOf o) = (t.breakEnds.filter (· ≤ o)).getLast?.getD 0 := by
  rw [filter_le_eq_take t.breakEnds_pairwise]
  have hcount : t.breakEnds.countP (· ≤ o) = t.lineOf o := rfl
  rw [hcount]
  have hlt := t.lineOf_lt o
  cases hline : t.lineOf o with
  | zero => rw [lineStart_zero]; rfl
  | succ k =>
    have hk : k < t.breakEnds.length := by rw [lineCount] at hlt; omega
    rw [lineStart_succ hk, List.getLast?_take, if_neg (Nat.succ_ne_zero k), Nat.add_sub_cancel,
      List.getElem?_eq_getElem hk]
    rfl

/-- what is put behind a text moves none of its lines -/
theorem lineStart_lineOf_append (h : ¬ Joins a z) (ho : o ≤ a.length) :
    (a ++ z).lineStart ((a ++ z).lineOf o) = a.lineStart (a.lineOf o) := by
  have hbehind : (z.breakEnds.map (· + a.length)).filter (· ≤ o) = [] := by
    rw [List.filter_eq_nil_iff]
    intro e he
    obtain ⟨d, hd, rfl⟩ := List.mem_map.1 he
    have hpos := (isBreakEnd_of_mem hd).pos
    simp only [decide_eq_true_eq]
    omega
  rw [lineStart_lineOf, lineStart_lineOf, breakEnds_append a z h, List.filter_append, hbehind, List.append_nil]

theorem column_append (h : ¬ Joins a z) (ho : o ≤ a.length) :
    ((a ++ z).positionOf o).column = (a.positionOf o).column := by
  have hlen : o ≤ (a ++ z).length := by rw [List.length_append]; omega
  simp only [positionOf, min_eq_left ho, min_eq_left hlen, lineStart_lineOf_append h ho]

/-- **The column of a character** depends on the text up to it, unless it is a CR. -/
theorem column_of_take_eq (htake : t.take (o + 1) = u.take (o + 1)) (ht : o < t.length) (hu : o < u.length)
    (hchar : t.charAt o ≠ '\r') : (t.positionOf o).column = (u.positionOf o).column := by
  have hcut : ∀ v : Text, o < v.length → v.charAt o ≠ '\r' →
    (v.positionOf o).column = (Text.positionOf (v.take (o + 1)) o).column := by
    intro v hv hcr
    have hlen : (v.take (o + 1)).length = o + 1 := by rw [List.length_take]; omega
    have hlast : (v.take (o + 1)).getLast? = some (v.charAt o) := v.getLast?_take_succ hv
    have hjoins : ¬ Joins (v.take (o + 1)) (v.drop (o + 1)) := by
      rintro ⟨hjoin, -⟩
      rw [hlast] at hjoin
      exact hcr (Option.some.inj hjoin)
    have hcolumn := column_append hjoins (show o ≤ (v.take (o + 1)).length by omega)
    rwa [List.take_append_drop] at hcolumn
  have hsame : u.charAt o = t.charAt o := by
    have hget : Text.charAt (t.take (o + 1)) o = Text.charAt (u.take (o + 1)) o := by rw [htake]
    simpa [charAt, List.getD_eq_getElem?_getD, List.getElem?_take] using hget.symm
  rw [hcut t ht hchar, hcut u hu (by rwa [hsame]), htake]

/-- behind an LF and some blanks, the line starts behind the LF -/
theorem lineStart_behind_blanks {indent : Text} (hindent : indent.allBlank = true) (a z : Text) :
    let t := a ++ '\n' :: indent ++ z
    t.lineStart (t.lineOf (a ++ '\n' :: indent).length) = a.length + 1 := by
  intro t
  have hends : (a ++ '\n' :: indent).breakEnds = (a ++ ['\n']).breakEnds := by
    have hjoins : ¬ Joins (a ++ ['\n']) indent := by
      rintro ⟨hcr, -⟩
      rw [List.getLast?_concat] at hcr
      cases hcr
    have happend := breakEnds_append (a ++ ['\n']) indent hjoins
    rwa [breakEnds_of_allBlank hindent, List.map_nil, List.append_nil, List.append_assoc, List.singleton_append]
      at happend
  have hjoins : ¬ Joins (a ++ '\n' :: indent) z := by
    rintro ⟨hcr, -⟩
    have hmem : '\r' ∈ '\n' :: indent := by
      rw [List.getLast?_append_of_ne_nil _ (by simp)] at hcr
      exact List.mem_of_getLast? hcr
    rcases List.mem_cons.1 hmem with heq | hmem
    · cases heq
    · have hblank := List.all_eq_true.1 hindent _ hmem
      cases hblank
  have hall : (a ++ '\n' :: indent).breakEnds.filter (· ≤ (a ++ '\n' :: indent).length) =
    (a ++ '\n' :: indent).breakEnds := by
    rw [List.filter_eq_self]
    intro e he
    have hle := (isBreakEnd_of_mem he).le
    simpa using hle
  rw [lineStart_lineOf_append hjoins le_rfl, lineStart_lineOf, hall, hends, IsLine.getLast?_breakEnds]
  rfl

/-- so the column counts the blanks -/
theorem column_behind_blanks {indent : Text} (hindent : indent.allBlank = true) (a z : Text) :
    ((a ++ '\n' :: indent ++ z).positionOf (a ++ '\n' :: indent).length).column = indent.length := by
  have hlen : (a ++ '\n' :: indent).length ≤ (a ++ '\n' :: indent ++ z).length :=
    (List.prefix_append _ z).length_le
  rw [positionOf, min_eq_left hlen]
  dsimp only
  rw [lineStart_behind_blanks hindent, List.length_append, List.length_cons]
  omega

/-- a character that is no blank stands behind the indentation of its line -/
theorem lineIndentEnd_le (ho : o < t.length) (hchar : isBlank (t.charAt o) = false) :
    t.lineIndentEnd (t.lineOf o) ≤ o := by
  have hstart := t.lineStart_lineOf_le o
  have hend := le_lineEnd_lineOf ho.le
  by_contra hlt
  rw [lineIndentEnd, lineIndent] at hlt
  set line := t.slice (t.lineStart (t.lineOf o)) (t.lineEnd (t.lineOf o)) with hline
  have hin : o - t.lineStart (t.lineOf o) < line.indentation.length := by omega
  have hlen : line.indentation.length ≤ t.lineEnd (t.lineOf o) - t.lineStart (t.lineOf o) :=
    (List.takeWhile_prefix _).length_le.trans (t.length_slice_le _ _)
  -- the characters of the indentation are blanks, and `o` would be among them
  have hblank : isBlank (line.charAt (o - t.lineStart (t.lineOf o))) = true := by
    have hget : line.indentation[o - t.lineStart (t.lineOf o)] = line.charAt (o - t.lineStart (t.lineOf o)) := by
      rw [charAt_eq_getElem _ (hin.trans_le (List.takeWhile_prefix _).length_le)]
      exact (List.takeWhile_prefix _).getElem hin
    rw [← hget]
    exact List.mem_takeWhile_imp (List.getElem_mem hin)
  rw [hline, charAt_slice t (by omega), Nat.add_sub_cancel' hstart, hchar] at hblank
  cases hblank

/-- **The column behind a character**, counted from the indentation of its line -/
theorem column_eq_of_indent (ho : o < t.length) (hchar : isBlank (t.charAt o) = false) :
    (t.lineIndent (t.lineOf o)).length + (o - t.lineIndentEnd (t.lineOf o) + 1) = (t.positionOf o).column + 1 := by
  have hindent := lineIndentEnd_le ho hchar
  have hstart := t.lineStart_lineOf_le o
  have hend : t.lineIndentEnd (t.lineOf o) = t.lineStart (t.lineOf o) + (t.lineIndent (t.lineOf o)).length := rfl
  rw [positionOf]
  simp only [min_eq_left ho.le]
  omega

end CodeEditor.Text
