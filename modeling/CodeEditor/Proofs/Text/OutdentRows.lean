import CodeEditor.Proofs.Text.Rows
/-!
What is left of each line when several lines lose their first characters.

Written line after line, each with the break behind it (`withoutStarts`), that is the text that comes out when the
blanks go from the last line to the first (`outdentAll_eq_withoutStarts`). Read line after line (`LosesStarts`), it is
what comes out from the first line to the last, exactly if no line melts (`losesStarts_outdentInTurn_iff`): a removal
never makes more lines (`lineCount_outdent_le`), so a line that melts is missing at the end.
-/

namespace CodeEditor.Text

/-! ## Written line after line -/

/-- a line with the break behind it -/
def wholeLine (t : Text) (line : Nat) : Text :=
  if line + 1 < t.lineCount then t.slice (t.lineStart line) (t.lineStart (line + 1)) else t.drop (t.lineStart line)

/-- the text, line after line, without the first `width` characters of some lines -/
def withoutStarts (t : Text) (width : Nat) (lines : List Nat) : Text :=
  (List.range t.lineCount).flatMap fun line => (t.wholeLine line).drop (if line ∈ lines then width else 0)

/-- the lines before a line are the text before it -/
theorem flatMap_wholeLine_range (t : Text) {n : Nat} (hn : n < t.lineCount) :
    (List.range n).flatMap t.wholeLine = t.take (t.lineStart n) := by
  induction n with
  | zero => rw [lineStart_zero]; rfl
  | succ n ih =>
    have hle := t.lineStart_mono (Nat.le_succ n)
    rw [List.range_succ, List.flatMap_append, ih (Nat.lt_of_succ_lt hn), List.flatMap_singleton, wholeLine,
      if_pos hn, slice, ← List.take_add, Nat.add_sub_cancel' hle]

/-- the text cut at a line before which nothing is lost -/
theorem withoutStarts_cut (t : Text) (width : Nat) {line : Nat} (hline : line < t.lineCount) {lines : List Nat}
    (hlines : ∀ k ∈ lines, line ≤ k) :
    t.withoutStarts width lines =
      t.take (t.lineStart line) ++ ((t.wholeLine line).drop (if line ∈ lines then width else 0) ++
      (List.range' (line + 1) (t.lineCount - (line + 1))).flatMap fun k =>
        (t.wholeLine k).drop (if k ∈ lines then width else 0)) := by
  have hrange : List.range t.lineCount = List.range line ++ line :: List.range' (line + 1)
    (t.lineCount - (line + 1)) := by
    have hbehind : t.lineCount - line = t.lineCount - (line + 1) + 1 := by omega
    have happend : List.range' 0 line ++ List.range' (0 + line) (t.lineCount - line) =
      List.range' 0 (line + (t.lineCount - line)) :=
      List.range'_append_1
    rw [Nat.zero_add, Nat.add_sub_cancel' hline.le, hbehind, List.range'_succ] at happend
    rw [List.range_eq_range', List.range_eq_range', happend]
  have hbefore : (List.range line).flatMap (fun k => (t.wholeLine k).drop (if k ∈ lines then width else 0)) =
      (List.range line).flatMap t.wholeLine := by
    refine List.flatMap_congr fun k hk => ?_
    have hnot : k ∉ lines := fun hmem => absurd (hlines k hmem) (Nat.not_le.2 (List.mem_range.1 hk))
    rw [if_neg hnot, List.drop_zero]
  rw [withoutStarts, hrange, List.flatMap_append, hbefore, t.flatMap_wholeLine_range hline, List.flatMap_cons]

theorem Indented.le_length_wholeLine {t : Text} {width line : Nat} (h : t.Indented width line) :
    width ≤ (t.wholeLine line).length := by
  have hle := h.le_length
  unfold wholeLine
  split
  · rename_i hnext
    have hlt := h.lt_lineStart (Nat.lt_succ_self line) hnext
    rw [Nat.succ_eq_add_one] at hlt
    rw [length_slice _ (t.lineStart_le_length _)]
    omega
  · rw [List.length_drop]
    omega

/-- **Last line first, every line loses its own characters**, and nothing else is lost. -/
theorem outdentAll_eq_withoutStarts {t : Text} {width : Nat} {lines : List Nat} (hsorted : lines.Pairwise (· < ·))
    (hlines : ∀ line ∈ lines, t.Indented width line) : t.outdentAll width lines = t.withoutStarts width lines := by
  induction lines with
  | nil =>
    have hlast : t.lineCount - (t.breakEnds.length + 1) = 0 := Nat.sub_self _
    have hline : t.wholeLine t.breakEnds.length = t.drop (t.lineStart t.breakEnds.length) := if_neg (Nat.lt_irrefl _)
    rw [t.withoutStarts_cut width (Nat.lt_succ_self t.breakEnds.length) (fun k hk => absurd hk List.not_mem_nil),
      hlast, hline, if_neg List.not_mem_nil, List.drop_zero, List.range'_zero, List.flatMap_nil, List.append_nil,
      List.take_append_drop]
    rfl
  | cons line rest ih =>
    obtain ⟨hlt, hrest⟩ := List.pairwise_cons.1 hsorted
    have hline := hlines line List.mem_cons_self
    have hindented : ∀ k ∈ rest, t.Indented width k := fun k hk => hlines k (List.mem_cons_of_mem _ hk)
    have hnot : line ∉ rest := fun hmem => Nat.lt_irrefl _ (hlt line hmem)
    obtain ⟨hstart, -, -⟩ := hline.outdentAll fun k hk => ⟨hlt k hk, (hindented k hk).line_lt⟩
    have hlen := t.length_take_lineStart line
    -- behind the line, it makes no difference whether the line is one of those that lose
    have hbehind : ∀ k ∈ List.range' (line + 1) (t.lineCount - (line + 1)),
        (t.wholeLine k).drop (if k ∈ line :: rest then width else 0) =
          (t.wholeLine k).drop (if k ∈ rest then width else 0) := by
      intro k hk
      have hne : k ≠ line := by rw [List.mem_range'_1] at hk; omega
      simp only [List.mem_cons, hne, false_or]
    have hcons : ∀ k ∈ line :: rest, line ≤ k := by
      intro k hk
      rcases List.mem_cons.1 hk with rfl | hk
      · exact Nat.le_refl _
      · exact (hlt k hk).le
    show (t.outdentAll width rest).outdent width line = _
    rw [outdent, hstart, ih hrest hindented, t.withoutStarts_cut width hline.line_lt fun k hk => (hlt k hk).le,
      t.withoutStarts_cut width hline.line_lt hcons, if_neg hnot, if_pos List.mem_cons_self, List.drop_zero,
      List.flatMap_congr hbehind, List.take_left' hlen, ← List.drop_drop, List.drop_left' hlen,
      List.drop_append_of_le_length hline.le_length_wholeLine]

/-! ## Read line after line -/

/-- every line is there, and some of them lack their first `width` characters -/
structure LosesStarts (t u : Text) (width : Nat) (lines : List Nat) : Prop where
  lineCount : u.lineCount = t.lineCount
  lineText : ∀ k, u.lineText k = (t.lineText k).drop (if k ∈ lines then width else 0)

section

variable {t : Text} {width line : Nat}

/-- a line that does not melt loses its blanks, and no other line loses anything -/
theorem Indented.rows_outdent (h : t.Indented width line) (hmelts : ¬ t.Melts width line) :
    (t.outdent width line).rows = t.rows.set line ((t.lineText line).drop width) := by
  obtain ⟨before, first, behind, hlen, hbefore, hfirst, htext, hrows⟩ := h.rows_cut
  rw [Text.outdent, rows_append hmelts hbefore hfirst, List.nil_append, hrows, htext,
    List.drop_left' h.length_blanks, ← hlen]
  simp

theorem lineText_of_lineCount_le {k : Nat} (hk : t.lineCount ≤ k) : t.lineText k = [] :=
  if_neg (Nat.not_lt.2 hk)

theorem Indented.losesStarts_outdent (h : t.Indented width line) (hmelts : ¬ t.Melts width line) :
    t.LosesStarts (t.outdent width line) width [line] := by
  have hcount := h.lineCount_outdent hmelts
  refine ⟨hcount, fun k => ?_⟩
  by_cases hk : k < t.lineCount
  · refine lineText_of_rows ?_
    rw [h.rows_outdent hmelts, List.getElem?_set, getElem?_rows t hk, length_rows, if_pos h.line_lt]
    by_cases heq : line = k
    · rw [if_pos heq, if_pos (List.mem_singleton.2 heq.symm), heq]
    · rw [if_neg heq, if_neg fun hmem => heq (List.mem_singleton.1 hmem).symm, List.drop_zero]
  · have hle := Nat.not_lt.1 hk
    rw [lineText_of_lineCount_le hle, lineText_of_lineCount_le (hcount.trans_le hle), List.drop_nil]

/-- lines that do not melt lose their blanks one after another -/
theorem losesStarts_outdentInTurn {lines : List Nat} (hsorted : lines.Pairwise (· < ·))
    (hlines : ∀ line ∈ lines, t.Indented width line) (hmelts : ∀ line ∈ lines, ¬ t.Melts width line) :
    t.LosesStarts (t.outdentInTurn width lines) width lines := by
  induction lines generalizing t with
  | nil => exact ⟨rfl, fun k => by rw [if_neg List.not_mem_nil, List.drop_zero]; rfl⟩
  | cons line rest ih =>
    obtain ⟨hlt, hrest⟩ := List.pairwise_cons.1 hsorted
    have hline := hlines line List.mem_cons_self
    have hnot := hmelts line List.mem_cons_self
    have hone := hline.losesStarts_outdent hnot
    have hthen : ∀ k ∈ rest, (t.outdent width line).Indented width k ∧ ¬ (t.outdent width line).Melts width k := by
      intro k hk
      obtain ⟨hindented, hmelts_iff⟩ := hline.outdent (hlines k (List.mem_cons_of_mem _ hk)) hnot (hlt k hk)
      exact ⟨hindented, fun hm => hmelts k (List.mem_cons_of_mem _ hk) (hmelts_iff.1 hm)⟩
    have hothers := ih hrest (fun k hk => (hthen k hk).1) fun k hk => (hthen k hk).2
    rw [outdentInTurn_cons]
    refine ⟨hothers.lineCount.trans hone.lineCount, fun k => ?_⟩
    rw [hothers.lineText, hone.lineText, List.drop_drop]
    congr 1
    by_cases heq : k = line
    · have hmem : k ∉ rest := fun hmem => absurd (hlt k hmem) (by omega)
      rw [if_pos (List.mem_singleton.2 heq), if_neg hmem, if_pos (heq ▸ List.mem_cons_self), Nat.add_zero]
    · rw [if_neg fun hmem => heq (List.mem_singleton.1 hmem), Nat.zero_add]
      simp only [List.mem_cons, heq, false_or]

/-! ## A line that melts -/

theorem length_breakEnds_le_append (m c : Text) : c.breakEnds.length ≤ (m ++ c).breakEnds.length := by
  by_cases hjoins : Joins m c
  · rw [breakEnds_append_of_joins hjoins, List.length_append, List.length_map]
    exact Nat.le_add_left _ _
  · rw [breakEnds_append _ _ hjoins, List.length_append, List.length_map]
    exact Nat.le_add_left _ _

/-- what is taken out of a text takes breaks with it and brings no new ones -/
theorem length_breakEnds_take_out (a m c : Text) : (a ++ c).breakEnds.length ≤ (a ++ (m ++ c)).breakEnds.length := by
  have hle : (a ++ c).breakEnds.length ≤ a.breakEnds.length + c.breakEnds.length := by
    by_cases hjoins : Joins a c
    · rw [breakEnds_append_of_joins hjoins, List.length_append, List.length_map, List.length_dropLast]
      omega
    · rw [breakEnds_append _ _ hjoins, List.length_append, List.length_map]
  by_cases hjoins : Joins a (m ++ c)
  · cases m with
    | nil => exact Nat.le_refl _
    | cons d m =>
      -- the LF that the CR loses is made up for by its own break
      obtain rfl : d = '\n' := by simpa using hjoins.2
      have hrest := length_breakEnds_le_append m c
      rw [breakEnds_append_of_joins hjoins, List.cons_append, breakEnds_lf_cons]
      simp only [List.length_append, List.length_map, List.length_cons, List.length_dropLast]
      omega
  · have hrest := length_breakEnds_le_append m c
    rw [breakEnds_append _ _ hjoins, List.length_append, List.length_map]
    omega

theorem lineCount_outdent_le (t : Text) (width line : Nat) : (t.outdent width line).lineCount ≤ t.lineCount := by
  have hle := length_breakEnds_take_out (t.take (t.lineStart line))
    (t.slice (t.lineStart line) (t.lineStart line + width)) (t.drop (t.lineStart line + width))
  rw [← drop_eq_slice_append, List.take_append_drop] at hle
  exact Nat.succ_le_succ hle

theorem lineCount_outdentInTurn_le (width : Nat) (lines : List Nat) (t : Text) :
    (t.outdentInTurn width lines).lineCount ≤ t.lineCount := by
  induction lines generalizing t with
  | nil => exact Nat.le_refl _
  | cons line rest ih => exact (ih _).trans (t.lineCount_outdent_le width line)

/-- a line that melts is missing -/
theorem lineCount_outdentInTurn_lt {lines : List Nat} (hsorted : lines.Pairwise (· < ·))
    (hlines : ∀ line ∈ lines, t.Indented width line) {k : Nat} (hk : k ∈ lines) (hmelts : t.Melts width k) :
    (t.outdentInTurn width lines).lineCount < t.lineCount := by
  induction lines generalizing t with
  | nil => exact absurd hk List.not_mem_nil
  | cons line rest ih =>
    obtain ⟨hlt, hrest⟩ := List.pairwise_cons.1 hsorted
    have hline := hlines line List.mem_cons_self
    rw [outdentInTurn_cons]
    by_cases hm : t.Melts width line
    · have hcount := hline.lineCount_outdent_of_melts hm
      have hle := lineCount_outdentInTurn_le width rest (t.outdent width line)
      omega
    · rcases List.mem_cons.1 hk with rfl | hk
      · exact absurd hmelts hm
      · have hthen := fun j (hj : j ∈ rest) => hline.outdent (hlines j (List.mem_cons_of_mem _ hj)) hm (hlt j hj)
        rw [← hline.lineCount_outdent hm]
        exact ih hrest (fun j hj => (hthen j hj).1) hk ((hthen k hk).2.2 hmelts)

/-- **First line first, every line is left with what it should be**, exactly if none of them melts. -/
theorem losesStarts_outdentInTurn_iff {lines : List Nat} (hsorted : lines.Pairwise (· < ·))
    (hlines : ∀ line ∈ lines, t.Indented width line) :
    t.LosesStarts (t.outdentInTurn width lines) width lines ↔ ∀ line ∈ lines, ¬ t.Melts width line := by
  refine ⟨fun h line hline hmelts => ?_, losesStarts_outdentInTurn hsorted hlines⟩
  exact absurd h.lineCount (Nat.ne_of_lt (lineCount_outdentInTurn_lt hsorted hlines hline hmelts))

end

end CodeEditor.Text
