import CodeEditor.Proofs.Text.Ink
/-!
Blanks taken away from the start of several lines.

Lines are known by number, so the order matters. From the last line to the first (`outdentAll`) every number is still
right when its turn comes: what is done behind a line leaves the line alone (`Indented.of_prefix`). From the first line
to the last (`outdentInTurn`) it is right only while no line *melts*: nothing but the removed blanks stood between a CR
and an LF, the two become one break, and every line behind has another number. `outdentInTurn_eq_outdentAll_iff` says
exactly when the two orders agree: unless some line melts and one behind it is not the last of the text.
-/

namespace CodeEditor.Text

/-- the line starts with at least `width` blanks -/
structure Indented (t : Text) (width line : Nat) : Prop where
  line_lt : line < t.lineCount
  le_length : t.lineStart line + width ≤ t.length
  blank : (t.slice (t.lineStart line) (t.lineStart line + width)).allBlank = true

/-- the text without the first `width` characters of a line -/
def outdent (t : Text) (width line : Nat) : Text :=
  t.take (t.lineStart line) ++ t.drop (t.lineStart line + width)

/-- the text without the first `width` characters of some lines, the last line first -/
def outdentAll (t : Text) (width : Nat) (lines : List Nat) : Text :=
  lines.foldr (fun line t => t.outdent width line) t

/-- the same, the first line first: each line is found where its number leads when its turn comes -/
def outdentInTurn (t : Text) (width : Nat) (lines : List Nat) : Text :=
  lines.foldl (fun t line => t.outdent width line) t

theorem outdentInTurn_cons (t : Text) (width line : Nat) (rest : List Nat) :
    t.outdentInTurn width (line :: rest) = (t.outdent width line).outdentInTurn width rest := rfl

/-- without its first `width` characters, the line would be the LF of the CR before it -/
def Melts (t : Text) (width line : Nat) : Prop :=
  Joins (t.take (t.lineStart line)) (t.drop (t.lineStart line + width))

instance (t : Text) (width line : Nat) : Decidable (t.Melts width line) :=
  inferInstanceAs (Decidable (Joins _ _))

/-- one of the lines melts, and one behind it is not the last line of the text -/
def Renumbers (t : Text) (width : Nat) (lines : List Nat) : Prop :=
  ∃ line ∈ lines, ∃ k ∈ lines, line < k ∧ k + 1 < t.lineCount ∧ t.Melts width line

instance (t : Text) (width : Nat) (lines : List Nat) : Decidable (t.Renumbers width lines) :=
  inferInstanceAs (Decidable (∃ line ∈ lines, ∃ k ∈ lines, line < k ∧ k + 1 < t.lineCount ∧ t.Melts width line))

/-- taking blanks away from one line after another, some removal meets characters that are neither blanks nor breaks -/
def Bites (t : Text) (width : Nat) : List Nat → Prop
  | [] => False
  | line :: rest =>
    (t.slice (t.lineStart line) (t.lineStart line + width)).ink ≠ [] ∨ Bites (t.outdent width line) width rest

instance decidableBites (t : Text) (width : Nat) : (lines : List Nat) → Decidable (t.Bites width lines)
  | [] => inferInstanceAs (Decidable False)
  | line :: rest =>
    have := decidableBites (t.outdent width line) width rest
    inferInstanceAs (Decidable (_ ∨ _))

/-- the indentation of a line is on it -/
theorem indented_of_le {t : Text} {width line : Nat} (hline : line < t.lineCount)
    (h : width ≤ (t.lineIndent line).length) :
    t.Indented width line := by
  refine ⟨hline, ?_, t.allBlank_slice_lineStart h⟩
  have hindent : (t.lineIndent line).length ≤ (t.slice (t.lineStart line) (t.lineEnd line)).length :=
    (List.takeWhile_prefix _).length_le
  have hstart := t.lineStart_le_length line
  rw [slice, List.length_take, List.length_drop] at hindent
  omega

theorem length_take_lineStart (t : Text) (line : Nat) : (t.take (t.lineStart line)).length = t.lineStart line := by
  rw [List.length_take]
  exact min_eq_left (t.lineStart_le_length line)

theorem take_outdent (t : Text) (width : Nat) {line i : Nat} (hi : t.lineStart line ≤ i) :
    (t.outdent width line).take i = t.take (t.lineStart line) ++ t.slice (t.lineStart line + width) (i + width) := by
  have hlen := t.length_take_lineStart line
  rw [outdent, List.take_append, List.take_of_length_le (by omega), hlen, slice]
  congr 2; omega

theorem drop_outdent (t : Text) (width : Nat) {line i : Nat} (hi : t.lineStart line ≤ i) :
    (t.outdent width line).drop i = t.drop (i + width) := by
  have hlen := t.length_take_lineStart line
  rw [outdent, List.drop_append, List.drop_eq_nil_of_le (by omega), hlen, List.nil_append, List.drop_drop]
  congr 1; omega

/-- the breaks of the text without the blanks -/
theorem breakEnds_outdent {t : Text} {width line : Nat} (h : ¬ t.Melts width line) :
    (t.outdent width line).breakEnds = breakEnds (t.take (t.lineStart line)) ++
      (breakEnds (t.drop (t.lineStart line + width))).map (· + t.lineStart line) := by
  rw [outdent, breakEnds_append _ _ h, length_take_lineStart]

/-- the breaks of the text where the line melts: the end of the CR before it is an end no more -/
theorem breakEnds_outdent_of_melts {t : Text} {width line : Nat} (hmelts : t.Melts width line) :
    (t.outdent width line).breakEnds = (breakEnds (t.take (t.lineStart line))).dropLast ++
      (breakEnds (t.drop (t.lineStart line + width))).map (· + t.lineStart line) := by
  rw [outdent, breakEnds_append_of_joins hmelts, length_take_lineStart]

/-- the first line does not melt -/
theorem Melts.pos {t : Text} {width line : Nat} (hmelts : t.Melts width line) : 0 < line := by
  rcases Nat.eq_zero_or_pos line with rfl | hpos
  · have hcr := hmelts.1
    rw [lineStart_zero] at hcr
    cases hcr
  · exact hpos

theorem isBreak_of_isBlank {c : Char} (h : isBlank c = true) : isBreak c = false := by
  simp only [isBlank, Bool.or_eq_true, beq_iff_eq] at h
  rcases h with rfl | rfl <;> rfl

theorem breakEnds_of_allBlank {u : Text} (h : u.allBlank = true) : u.breakEnds = [] := by
  refine List.eq_nil_iff_forall_not_mem.2 fun e he => ?_
  have hend := isBreakEnd_of_mem he
  have hlt : e - 1 < u.length := by have := hend.pos; have := hend.le; omega
  have hbreak := hend.isBreak
  rw [charAt_eq_getElem _ hlt, isBreak_of_isBlank (List.all_eq_true.1 h _ (List.getElem_mem hlt))] at hbreak
  cases hbreak

theorem not_joins_allBlank {u : Text} (h : u.allBlank = true) (c : Text) : ¬ Joins u c := by
  rintro ⟨hcr, -⟩
  exact absurd (List.all_eq_true.1 h _ (List.mem_of_getLast? hcr)) (by decide)

/-! ## One line -/

section

variable {t : Text} {width line : Nat} (h : t.Indented width line)
include h

theorem Indented.length_blanks : (t.slice (t.lineStart line) (t.lineStart line + width)).length = width := by
  rw [length_slice _ h.le_length, Nat.add_sub_cancel_left]

/-- the breaks of a text whose line `line` starts with blanks: those of the lines before it, and
those behind the blanks -/
theorem Indented.breakEnds_eq :
    t.breakEnds = breakEnds (t.take (t.lineStart line)) ++
      (breakEnds (t.drop (t.lineStart line + width))).map (· + width + t.lineStart line) := by
  have hlen := h.length_blanks
  set p := t.lineStart line
  have hbehind : breakEnds (t.drop p) = (breakEnds (t.drop (p + width))).map (· + width) := by
    rw [t.drop_eq_slice_append p width, breakEnds_append _ _ (not_joins_allBlank h.blank _),
      breakEnds_of_allBlank h.blank, hlen]; rfl
  rw [(t.breakEnds_cut h.line_lt).1, hbehind, List.map_map]; rfl

/-- a line further down starts behind the blanks, where some break behind them ends -/
theorem Indented.lineStart_behind {j : Nat} (hk : line + j + 1 < t.lineCount) :
    ∃ hj : j < (breakEnds (t.drop (t.lineStart line + width))).length,
      t.lineStart (line + j + 1) = (breakEnds (t.drop (t.lineStart line + width)))[j] + width + t.lineStart line := by
  have hbefore := (t.breakEnds_cut h.line_lt).2
  have hlt : line + j < t.breakEnds.length := by rw [lineCount] at hk; omega
  have hj : j < (breakEnds (t.drop (t.lineStart line + width))).length := by
    rw [h.breakEnds_eq, List.length_append, List.length_map] at hlt; omega
  refine ⟨hj, ?_⟩
  rw [lineStart_succ hlt]
  simp only [h.breakEnds_eq]
  rw [List.getElem_append_right (by omega), List.getElem_map]
  simp only [hbefore, Nat.add_sub_cancel_left]

/-- no line melts that loses nothing -/
theorem Indented.width_pos (hmelts : t.Melts width line) : 0 < width := by
  refine Nat.pos_of_ne_zero fun hzero => t.not_joins_lineStart h.line_lt ?_
  rwa [Melts, hzero, Nat.add_zero] at hmelts

theorem Indented.lt_lineStart {k : Nat} (hlt : line < k) (hk : k < t.lineCount) :
    t.lineStart line + width < t.lineStart k := by
  obtain ⟨j, rfl⟩ : ∃ j, k = line + j + 1 := ⟨k - line - 1, by omega⟩
  obtain ⟨hj, hstart⟩ := h.lineStart_behind hk
  have := (isBreakEnd_of_mem (List.getElem_mem hj)).pos
  omega

/-- **A removal of blanks** from a line that does not melt moves the lines behind it back, and renumbers none. -/
theorem Indented.lineStart_outdent (hmelts : ¬ t.Melts width line) {k : Nat} (hlt : line < k) (hk : k < t.lineCount) :
    (t.outdent width line).lineStart k + width = t.lineStart k := by
  obtain ⟨j, rfl⟩ : ∃ j, k = line + j + 1 := ⟨k - line - 1, by omega⟩
  obtain ⟨hj, hstart⟩ := h.lineStart_behind hk
  have hbefore := (t.breakEnds_cut h.line_lt).2
  have hbreaks := breakEnds_outdent hmelts
  have hlt' : line + j < (t.outdent width line).breakEnds.length := by
    rw [hbreaks, List.length_append, List.length_map]; omega
  rw [lineStart_succ hlt', hstart]
  simp only [hbreaks]
  rw [List.getElem_append_right (by omega), List.getElem_map]
  simp only [hbefore, Nat.add_sub_cancel_left]
  omega

theorem Indented.lineCount_outdent (hmelts : ¬ t.Melts width line) :
    (t.outdent width line).lineCount = t.lineCount := by
  rw [lineCount, lineCount, h.breakEnds_eq, breakEnds_outdent hmelts]
  simp only [List.length_append, List.length_map]

/-- a line that melts is gone -/
theorem Indented.lineCount_outdent_of_melts (hmelts : t.Melts width line) :
    (t.outdent width line).lineCount + 1 = t.lineCount := by
  have hbefore := (t.breakEnds_cut h.line_lt).2
  have hpos := hmelts.pos
  rw [lineCount, lineCount, h.breakEnds_eq, breakEnds_outdent_of_melts hmelts]
  simp only [List.length_append, List.length_map, List.length_dropLast, hbefore]
  omega

/-- every line behind the one that melts takes the number of the one before, and the number of the last line, which is
now too large, still means the last line -/
theorem Indented.lineStart_outdent_of_melts (hmelts : t.Melts width line) {k : Nat} (hlt : line < k)
    (hk : k < t.lineCount) :
    (t.outdent width line).lineStart k + width = t.lineStart (min (k + 1) (t.lineCount - 1)) := by
  have hbefore := (t.breakEnds_cut h.line_lt).2
  have hpos := hmelts.pos
  have hbreaks := breakEnds_outdent_of_melts hmelts
  have hcount := h.lineCount_outdent_of_melts hmelts
  -- the line that is meant now, by its old number
  obtain ⟨j, hj⟩ : ∃ j, min (k + 1) (t.lineCount - 1) = line + j + 1 :=
    ⟨min (k + 1) (t.lineCount - 1) - line - 1, by omega⟩
  have hclamp : (t.outdent width line).lineStart k = (t.outdent width line).lineStart (line + j) := by
    have hk' : (t.outdent width line).clampLine k = (t.outdent width line).clampLine (line + j) := by
      simp only [clampLine]; omega
    rw [← lineStart_clampLine, hk', lineStart_clampLine]
  obtain ⟨hget, hstart⟩ := h.lineStart_behind (show line + j + 1 < t.lineCount by omega)
  obtain ⟨i, rfl⟩ : ∃ i, line = i + 1 := ⟨line - 1, by omega⟩
  have hlt' : i + j < (t.outdent width (i + 1)).breakEnds.length := by
    rw [lineCount] at hcount; omega
  rw [hclamp, hj, hstart, show i + 1 + j = i + j + 1 by omega, lineStart_succ hlt']
  simp only [hbreaks]
  rw [List.getElem_append_right (by rw [List.length_dropLast]; omega), List.getElem_map]
  simp only [List.length_dropLast, hbefore, Nat.add_sub_cancel, Nat.add_sub_cancel_left]
  omega

end

/-! ## What is done behind a line -/

section

variable {t x : Text} {width n k : Nat}

/-- where no break is torn apart, a line starts where the text before it ends -/
theorem lineStart_of_append (hn : n < t.lineCount) {d : Text} (hx : t.take (t.lineStart n) ++ d = x)
    (h : ¬ Joins (t.take (t.lineStart n)) d) : x.lineStart n = t.lineStart n ∧ n < x.lineCount := by
  obtain ⟨hcut, hbefore⟩ := t.breakEnds_cut hn
  have hbreaks := breakEnds_append _ _ h
  rw [hx] at hbreaks
  have hcount : n < x.lineCount := by rw [lineCount, hbreaks, List.length_append]; omega
  refine ⟨?_, hcount⟩
  cases n with
  | zero => rw [lineStart_zero, lineStart_zero]
  | succ j =>
    have hlt : j < t.breakEnds.length := by rw [lineCount] at hn; omega
    have hlt' : j < x.breakEnds.length := by rw [lineCount] at hcount; omega
    have hget : t.breakEnds[j] = (breakEnds (t.take (t.lineStart (j + 1))))[j] := by
      simp only [hcut]
      rw [List.getElem_append_left]
    have hget' : x.breakEnds[j] = (breakEnds (t.take (t.lineStart (j + 1))))[j] := by
      simp only [hbreaks]
      rw [List.getElem_append_left]
    rw [lineStart_succ hlt', lineStart_succ hlt, hget, hget']

/-- as long as everything before a line stays, that line and those behind it start no earlier -/
theorem le_lineStart_of_prefix (hn : n < t.lineCount) (hx : t.take (t.lineStart n) <+: x) (hk : n ≤ k) :
    t.lineStart n ≤ x.lineStart k := by
  refine le_trans ?_ (x.lineStart_mono hk)
  obtain ⟨d, hd⟩ := hx
  by_cases hjoins : Joins (t.take (t.lineStart n)) d
  · -- the line starts behind the LF, then
    obtain ⟨c, hc⟩ := List.head?_eq_some_iff.1 hjoins.2
    have hbefore := (t.breakEnds_cut hn).2
    have hbreaks := breakEnds_append_of_joins hjoins
    rw [hd, hc, breakEnds_lf_cons, List.map_cons, length_take_lineStart] at hbreaks
    cases n with
    | zero => rw [lineStart_zero]; exact Nat.zero_le _
    | succ j =>
      have hlen : (breakEnds (t.take (t.lineStart (j + 1)))).dropLast.length = j := by
        rw [List.length_dropLast, hbefore]; rfl
      have hlt : j < x.breakEnds.length := by
        rw [hbreaks, List.length_append, List.length_cons]; omega
      rw [lineStart_succ hlt]
      simp only [hbreaks]
      rw [List.getElem_append_right (by omega)]
      simp only [hlen, Nat.sub_self, List.getElem_cons_zero]
      omega
  · exact (lineStart_of_append hn hd hjoins).1.ge

theorem prefix_outdent (hn : n < t.lineCount) (hx : t.take (t.lineStart n) <+: x) (hk : n ≤ k) :
    t.take (t.lineStart n) <+: x.outdent width k := by
  have hle := le_lineStart_of_prefix hn hx hk
  have htake : t.take (t.lineStart n) <+: x.take (x.lineStart k) :=
    List.prefix_take_iff.2 ⟨hx, by rw [length_take_lineStart]; exact hle⟩
  exact htake.trans (List.prefix_append _ _)

theorem prefix_outdentInTurn (width : Nat) (hn : n < t.lineCount) {lines : List Nat} (hlines : ∀ k ∈ lines, n ≤ k)
    (hx : t.take (t.lineStart n) <+: x) :
    t.take (t.lineStart n) <+: x.outdentInTurn width lines := by
  induction lines generalizing x with
  | nil => exact hx
  | cons line rest ih =>
    exact ih (fun k hk => hlines k (List.mem_cons_of_mem _ hk)) (prefix_outdent hn hx (hlines line List.mem_cons_self))

theorem prefix_outdentAll (width : Nat) (hn : n < t.lineCount) {lines : List Nat} (hlines : ∀ k ∈ lines, n ≤ k) :
    t.take (t.lineStart n) <+: t.outdentAll width lines := by
  induction lines with
  | nil => exact List.take_prefix _ _
  | cons line rest ih =>
    exact prefix_outdent hn (ih fun k hk => hlines k (List.mem_cons_of_mem _ hk)) (hlines line List.mem_cons_self)

end

/-- **What is done behind a line** leaves the line as it was. -/
theorem Indented.of_prefix {t x : Text} {width line : Nat} (h : t.Indented width line) (hnext : line + 1 < t.lineCount)
    (hx : t.take (t.lineStart (line + 1)) <+: x) :
    x.lineStart line = t.lineStart line ∧ x.Indented width line ∧ (x.Melts width line ↔ t.Melts width line) := by
  set p := t.lineStart line with hp
  have hlt : p + width < t.lineStart (line + 1) := h.lt_lineStart (Nat.lt_succ_self _) hnext
  have hlen := t.length_take_lineStart (line + 1)
  set q := t.lineStart (line + 1)
  obtain ⟨y, hy⟩ := hx
  have htake : ∀ i ≤ q, x.take i = t.take i := by
    intro i hi
    rw [← hy, List.take_append_of_le_length (by omega), List.take_take, min_eq_left hi]
  have hhead : ∀ i < q, (x.drop i).head? = (t.drop i).head? := by
    intro i hi
    rw [List.head?_drop, List.head?_drop, ← hy, List.getElem?_append_left (by omega), List.getElem?_take, if_pos hi]
  -- no break is torn apart before the line, so it starts where it did
  have hjoins : ¬ Joins (t.take p) (x.drop p) := by
    rintro ⟨hcr, hlf⟩
    rw [hhead p (by omega)] at hlf
    exact t.not_joins_lineStart h.line_lt ⟨hcr, hlf⟩
  have hx : t.take p ++ x.drop p = x := by rw [← htake p (by omega), List.take_append_drop]
  have hstart := lineStart_of_append h.line_lt hx hjoins
  refine ⟨hstart.1, ⟨hstart.2, ?_, ?_⟩, ?_⟩
  · rw [hstart.1, ← hy, List.length_append]; omega
  · have hblank := h.blank
    rw [← hp, slice, ← List.drop_take] at hblank
    rw [hstart.1, slice, ← List.drop_take, htake _ hlt.le]
    exact hblank
  · rw [Melts, Melts, hstart.1, Joins, Joins, htake p (by omega), hhead _ hlt]

theorem Indented.outdentAll {t : Text} {width line : Nat} (h : t.Indented width line) {rest : List Nat}
    (hrest : ∀ k ∈ rest, line < k ∧ k < t.lineCount) :
    (t.outdentAll width rest).lineStart line = t.lineStart line ∧ (t.outdentAll width rest).Indented width line ∧
      ((t.outdentAll width rest).Melts width line ↔ t.Melts width line) := by
  cases rest with
  | nil => exact ⟨rfl, h, Iff.rfl⟩
  | cons k rest =>
    have hnext : line + 1 < t.lineCount := by
      have := hrest k List.mem_cons_self
      omega
    exact h.of_prefix hnext (prefix_outdentAll width hnext fun k hk => (hrest k hk).1)

/-! ## Two orders -/

section

variable {t : Text} {width line k : Nat}

/-- what is true of a line further down stays true of it when a line that does not melt loses its blanks -/
theorem Indented.outdent (h : t.Indented width line) (hk : t.Indented width k) (hmelts : ¬ t.Melts width line)
    (hlt : line < k) : (t.outdent width line).Indented width k ∧
    ((t.outdent width line).Melts width k ↔ t.Melts width k) := by
  have hstart := h.lineStart_outdent hmelts hlt hk.line_lt
  have hpos := h.lt_lineStart hlt hk.line_lt
  have hle := h.le_length
  have hlen : (t.outdent width line).length + width = t.length := by
    rw [Text.outdent, List.length_append, List.length_take, List.length_drop]; omega
  have hdrop : ∀ i, (t.outdent width line).drop ((t.outdent width line).lineStart k + i) =
    t.drop (t.lineStart k + i) := by
    intro i
    rw [drop_outdent _ _ (by omega)]
    congr 1; omega
  have hslice : (t.outdent width line).slice ((t.outdent width line).lineStart k)
    ((t.outdent width line).lineStart k + width) =
      t.slice (t.lineStart k) (t.lineStart k + width) := by
    have := hdrop 0
    simp only [Nat.add_zero] at this
    simp only [slice, this, Nat.add_sub_cancel_left]
  -- the character before the line is the same, too
  have hlast : ((t.outdent width line).take ((t.outdent width line).lineStart k)).getLast? =
      (t.take (t.lineStart k)).getLast? := by
    have hprev : (t.outdent width line)[(t.outdent width line).lineStart k - 1]? = t[t.lineStart k - 1]? := by
      rw [← List.head?_drop, ← List.head?_drop, drop_outdent _ _ (by omega)]
      congr 2; omega
    have hk_le := t.lineStart_le_length k
    rw [List.getLast?_take, List.getLast?_take, if_neg (by omega), if_neg (by omega), hprev,
      List.getElem?_eq_getElem (show t.lineStart k - 1 < t.length by omega)]
    rfl
  refine ⟨⟨?_, ?_, ?_⟩, ?_⟩
  · rw [h.lineCount_outdent hmelts]; exact hk.line_lt
  · have := hk.le_length
    omega
  · rw [hslice]; exact hk.blank
  · rw [Melts, Melts, Joins, Joins, hlast, hdrop]

/-- two lines lose their blanks in either order, if the second one is still found where it is -/
theorem Indented.outdent_comm (h : t.Indented width line) (hk : t.Indented width k) (hlt : line < k)
    (hstart : (t.outdent width line).lineStart k + width = t.lineStart k) :
    (t.outdent width k).outdent width line = (t.outdent width line).outdent width k := by
  have hpos := h.lt_lineStart hlt hk.line_lt
  have hnext : line + 1 < t.lineCount := by have := hk.line_lt; omega
  have hline : (t.outdent width k).lineStart line = t.lineStart line :=
    (h.of_prefix hnext (prefix_outdent hnext (List.take_prefix _ _) hlt)).1
  have hk_le := t.length_take_lineStart k
  -- both are the text before the first blanks, what is between the two stretches, and what is behind the second one
  have hleft : (t.outdent width k).outdent width line =
      t.take (t.lineStart line) ++ t.slice (t.lineStart line + width) (t.lineStart k) ++ t.drop
        (t.lineStart k + width) := by
    have htake : (t.outdent width k).take (t.lineStart line) = t.take (t.lineStart line) := by
      rw [Text.outdent, List.take_append_of_le_length (by omega), List.take_take, min_eq_left (by omega)]
    have hdrop : (t.outdent width k).drop (t.lineStart line + width) =
        t.slice (t.lineStart line + width) (t.lineStart k) ++ t.drop (t.lineStart k + width) := by
      rw [Text.outdent, List.drop_append_of_le_length (by omega), slice, ← List.drop_take]
    rw [Text.outdent, hline, htake, hdrop, List.append_assoc]
  have hright : (t.outdent width line).outdent width k =
      t.take (t.lineStart line) ++ t.slice (t.lineStart line + width) (t.lineStart k) ++ t.drop
        (t.lineStart k + width) := by
    rw [Text.outdent, hstart, take_outdent _ _ (by omega), drop_outdent _ _ (by omega), hstart]
  rw [hleft, hright]

/-- a line that does not melt may lose its blanks before those behind it do -/
theorem Indented.outdentAll_outdent (h : t.Indented width line) (hmelts : ¬ t.Melts width line) {rest : List Nat}
    (hsorted : (line :: rest).Pairwise (· < ·)) (hrest : ∀ k ∈ rest, t.Indented width k) :
    (t.outdent width line).outdentAll width rest = (t.outdentAll width rest).outdent width line := by
  induction rest with
  | nil => rfl
  | cons k rest ih =>
    obtain ⟨hline, hk⟩ := List.pairwise_cons.1 hsorted
    have hbehind : ∀ j ∈ rest, k < j ∧ j < t.lineCount := fun j hj =>
      ⟨(List.pairwise_cons.1 hk).1 j hj, (hrest j (List.mem_cons_of_mem _ hj)).line_lt⟩
    have hlt : line < k := hline k List.mem_cons_self
    -- with the lines behind `k` done, `line` and `k` are as they were
    obtain ⟨-, hk', -⟩ := (hrest k List.mem_cons_self).outdentAll hbehind
    obtain ⟨-, hline', hmelts'⟩ := h.outdentAll fun j hj => ⟨hlt.trans (hbehind j hj).1, (hbehind j hj).2⟩
    have hstart := hline'.lineStart_outdent (fun hm => hmelts (hmelts'.1 hm)) hlt hk'.line_lt
    have hrest' :=
      ih (List.pairwise_cons.2 ⟨fun j hj => hline j (List.mem_cons_of_mem _ hj), (List.pairwise_cons.1 hk).2⟩)
      fun j hj => hrest j (List.mem_cons_of_mem _ hj)
    calc (t.outdent width line).outdentAll width (k :: rest)
        = ((t.outdent width line).outdentAll width rest).outdent width k := rfl
      _ = ((t.outdentAll width rest).outdent width line).outdent width k := by rw [hrest']
      _ = ((t.outdentAll width rest).outdent width k).outdent width line := (hline'.outdent_comm hk' hlt hstart).symm

/-- a text that starts again behind some blanks is blank -/
theorem allBlank_of_prefix_append {u v : Text} (hu : u.allBlank = true) (hne : u ≠ []) (h : v <+: u ++ v) :
    v.allBlank = true := by
  have hpos : 0 < u.length := List.length_pos_of_ne_nil hne
  have hall : ∀ i (hi : i < v.length), isBlank v[i] = true := by
    intro i
    induction i using Nat.strong_induction_on with
    | _ i ih =>
      intro hi
      have hi_append : i < (u ++ v).length := by rw [List.length_append]; omega
      have hget : v[i] = (u ++ v)[i] := h.getElem hi
      by_cases hlt : i < u.length
      · rw [hget, List.getElem_append_left hlt]
        exact List.all_eq_true.1 hu _ (List.getElem_mem hlt)
      · rw [hget, List.getElem_append_right (by omega)]
        exact ih (i - u.length) (by omega) (by omega)
  refine List.all_eq_true.2 fun c hc => ?_
  obtain ⟨i, hi, rfl⟩ := List.getElem_of_mem hc
  exact hall i hi

/-- the characters of a line that does not end the text are not all blanks -/
theorem not_allBlank_line {i : Nat} (hk : k + 1 < t.lineCount) (hi : i < t.lineStart (k + 1)) :
    ¬ (t.slice i (t.lineStart (k + 1))).allBlank = true := by
  intro hblank
  have hlt : k < t.breakEnds.length := by rw [lineCount] at hk; omega
  have hend := isBreakEnd_of_mem (List.getElem_mem hlt)
  rw [← lineStart_succ hlt] at hend
  have hle := hend.le
  have hbreak := hend.isBreak
  rw [charAt_eq_getElem _ (by omega)] at hbreak
  have hlast : t.lineStart (k + 1) - 1 - i < (t.slice i (t.lineStart (k + 1))).length := by
    rw [length_slice _ hle]; omega
  have hget : (t.slice i (t.lineStart (k + 1)))[t.lineStart (k + 1) - 1 - i] = t[t.lineStart (k + 1) - 1] := by
    simp only [slice, List.getElem_take, List.getElem_drop]
    congr 1; omega
  have := List.all_eq_true.1 hblank _ (List.getElem_mem hlast)
  rw [hget] at this
  rw [isBreak_of_isBlank this] at hbreak
  cases hbreak

/-- when a line melts, the line `k` behind it keeps its blanks, for its number is that of the next one -/
theorem Indented.prefix_outdentInTurn_of_melts (h : t.Indented width line) (hmelts : t.Melts width line)
    (hlt : line < k) (hnext : k + 1 < t.lineCount) {rest : List Nat} (hrest : ∀ j ∈ rest, k < j) :
    t.take (t.lineStart line) ++ t.slice (t.lineStart line + width) (t.lineStart (k + 1)) <+:
      t.outdentInTurn width (line :: k :: rest) := by
  have hcount := h.lineCount_outdent_of_melts hmelts
  have hstart := h.lineStart_outdent_of_melts hmelts hlt (by omega)
  rw [min_eq_left (by omega)] at hstart
  have hpos := h.lt_lineStart (hlt.trans (Nat.lt_add_one k)) hnext
  have hbehind : ∀ j ∈ k :: rest, k ≤ j := by
    intro j hj
    rcases List.mem_cons.1 hj with rfl | hj
    · exact le_rfl
    · exact (hrest j hj).le
  have hprefix := prefix_outdentInTurn width (n := k) (by omega) hbehind (List.take_prefix _ (t.outdent width line))
  rwa [take_outdent _ _ (by omega), hstart] at hprefix

/-- from the last line to the first, the blanks of `k` go, too -/
theorem Indented.exists_outdentAll_eq (h : t.Indented width line) (hk : t.Indented width k) (hlt : line < k)
    (hnext : k + 1 < t.lineCount) {rest : List Nat} (hrest : ∀ j ∈ rest, k < j) :
    ∃ y, t.outdentAll width (line :: k :: rest) =
      t.take (t.lineStart line) ++ (t.slice (t.lineStart line + width) (t.lineStart k) ++
        (t.slice (t.lineStart k + width) (t.lineStart (k + 1)) ++ y)) := by
  have hpos := h.lt_lineStart hlt hk.line_lt
  have hpos' := hk.lt_lineStart (Nat.lt_add_one k) hnext
  have hlen := t.length_take_lineStart (k + 1)
  have hlen' := t.length_take_lineStart k
  have hx := prefix_outdentAll width hnext fun j hj => Nat.succ_le_of_lt (hrest j hj)
  have hxk := (hk.of_prefix hnext hx).1
  have hxline := (h.of_prefix (x := (t.outdentAll width rest).outdent width k) (by omega)
    (prefix_outdent (by omega) (prefix_outdentAll width (by omega) fun j hj => by have := hrest j hj; omega) hlt)).1
  obtain ⟨y, hy⟩ := hx
  have houtdent : (t.outdentAll width rest).outdent width k =
      t.take (t.lineStart k) ++ (t.slice (t.lineStart k + width) (t.lineStart (k + 1)) ++ y) := by
    rw [Text.outdent, hxk, ← hy, List.take_append_of_le_length (by omega), List.take_take, min_eq_left (by omega),
      List.drop_append_of_le_length (by omega), slice, ← List.drop_take]
  refine ⟨y, ?_⟩
  show ((t.outdentAll width rest).outdent width k).outdent width line = _
  rw [Text.outdent, hxline, houtdent, List.take_append_of_le_length (by omega), List.take_take, min_eq_left (by omega),
    List.drop_append_of_le_length (by omega), List.drop_take]
  rfl

/-- when a line melts and one behind it is not the last one, the orders differ: else that line
would be blank to its end -/
theorem Indented.outdentInTurn_ne_outdentAll (h : t.Indented width line) (hmelts : t.Melts width line)
    (hk : t.Indented width k) (hlt : line < k) (hnext : k + 1 < t.lineCount) {rest : List Nat}
    (hrest : ∀ j ∈ rest, k < j) :
    t.outdentInTurn width (line :: k :: rest) ≠ t.outdentAll width (line :: k :: rest) := by
  intro heq
  have hforward := h.prefix_outdentInTurn_of_melts hmelts hlt hnext hrest
  obtain ⟨y, hbackward⟩ := h.exists_outdentAll_eq hk hlt hnext hrest
  have hpos := h.lt_lineStart hlt hk.line_lt
  have hpos' := hk.lt_lineStart (Nat.lt_add_one k) hnext
  have hslice : t.slice (t.lineStart line + width) (t.lineStart (k + 1)) =
      t.slice (t.lineStart line + width) (t.lineStart k) ++ (t.slice (t.lineStart k) (t.lineStart k + width) ++
        t.slice (t.lineStart k + width) (t.lineStart (k + 1))) := by
    rw [slice_append _ (by omega) (by omega), slice_append _ (by omega) (by omega)]
  rw [heq, hbackward, hslice, List.prefix_append_right_inj, List.prefix_append_right_inj] at hforward
  have hprefix : t.slice (t.lineStart k + width) (t.lineStart (k + 1)) <+:
      t.slice (t.lineStart k) (t.lineStart k + width) ++ t.slice (t.lineStart k + width) (t.lineStart (k + 1)) :=
    List.prefix_of_prefix_length_le (List.prefix_append _ y) hforward (by rw [List.length_append]; omega)
  have hne : t.slice (t.lineStart k) (t.lineStart k + width) ≠ [] := by
    intro hnil
    have hlen := hk.length_blanks
    have hwidth := h.width_pos hmelts
    rw [hnil, List.length_nil] at hlen
    omega
  exact not_allBlank_line hnext hpos' (allBlank_of_prefix_append hk.blank hne hprefix)

/-- when a line melts and those behind it are the last one, there is no more than one of them -/
theorem Indented.outdentInTurn_eq_outdentAll (h : t.Indented width line) (hmelts : t.Melts width line) {rest : List Nat}
    (hsorted : (line :: rest).Pairwise (· < ·)) (hrest : ∀ k ∈ rest, t.Indented width k)
    (hlast : ∀ k ∈ rest, k + 1 = t.lineCount) :
    t.outdentInTurn width (line :: rest) = t.outdentAll width (line :: rest) := by
  obtain ⟨hlt, hbehind⟩ := List.pairwise_cons.1 hsorted
  match rest with
  | [] => rfl
  | [k] =>
    have hk := hrest k List.mem_cons_self
    have hend := hlast k List.mem_cons_self
    have hstart := h.lineStart_outdent_of_melts hmelts (hlt k List.mem_cons_self) hk.line_lt
    rw [min_eq_right (by omega), show t.lineCount - 1 = k by omega] at hstart
    exact (h.outdent_comm hk (hlt k List.mem_cons_self) hstart).symm
  | k :: next :: _ =>
    have hk : k < next := (List.pairwise_cons.1 hbehind).1 next List.mem_cons_self
    have hend := hlast k List.mem_cons_self
    have hend' := hlast next (List.mem_cons_of_mem _ List.mem_cons_self)
    omega

end

/-- a line that melts renumbers each line behind it, the last one apart -/
theorem renumbers_cons_of_melts {t : Text} {width line : Nat} {rest : List Nat} (hmelts : t.Melts width line)
    (hlt : ∀ k ∈ rest, line < k) : t.Renumbers width (line :: rest) ↔ ∃ k ∈ rest, k + 1 < t.lineCount := by
  constructor
  · rintro ⟨l, hl, k, hk, hlk, hnext, -⟩
    rcases List.mem_cons.1 hk with rfl | hk
    · rcases List.mem_cons.1 hl with rfl | hl
      · exact absurd hlk (lt_irrefl _)
      · exact absurd hlk (hlt l hl).le.not_gt
    · exact ⟨k, hk, hnext⟩
  · rintro ⟨k, hk, hnext⟩
    exact ⟨line, List.mem_cons_self, k, List.mem_cons_of_mem _ hk, hlt k hk, hnext, hmelts⟩

/-- a line that does not melt has no part in what renumbers -/
theorem renumbers_cons_of_not_melts {t : Text} {width line : Nat} {rest : List Nat} (h : t.Indented width line)
    (hmelts : ¬ t.Melts width line) (hlt : ∀ k ∈ rest, line < k) (hrest : ∀ k ∈ rest, t.Indented width k) :
    t.Renumbers width (line :: rest) ↔ (t.outdent width line).Renumbers width rest := by
  have hmelts_iff : ∀ l ∈ rest, ((t.outdent width line).Melts width l ↔ t.Melts width l) := fun l hl =>
    (h.outdent (hrest l hl) hmelts (hlt l hl)).2
  have hcount := h.lineCount_outdent hmelts
  constructor
  · rintro ⟨l, hl, k, hk, hlk, hnext, hm⟩
    rcases List.mem_cons.1 hl with rfl | hl
    · exact absurd hm hmelts
    rcases List.mem_cons.1 hk with hk | hk
    · have := hlt l hl
      omega
    · exact ⟨l, hl, k, hk, hlk, by rw [hcount]; exact hnext, (hmelts_iff l hl).2 hm⟩
  · rintro ⟨l, hl, k, hk, hlk, hnext, hm⟩
    exact ⟨l, List.mem_cons_of_mem _ hl, k, List.mem_cons_of_mem _ hk, hlk, by rw [← hcount]; exact hnext,
      (hmelts_iff l hl).1 hm⟩

/-- **First to last is last to first**, exactly if no line is renumbered on the way. -/
theorem outdentInTurn_eq_outdentAll_iff {t : Text} {width : Nat} {lines : List Nat}
    (hsorted : lines.Pairwise (· < ·)) (hlines : ∀ line ∈ lines, t.Indented width line) :
    t.outdentInTurn width lines = t.outdentAll width lines ↔ ¬ t.Renumbers width lines := by
  induction lines generalizing t with
  | nil => exact iff_of_true rfl (by simp [Renumbers])
  | cons line rest ih =>
    obtain ⟨hlt, hrest⟩ := List.pairwise_cons.1 hsorted
    have hline := hlines line List.mem_cons_self
    have hindented : ∀ k ∈ rest, t.Indented width k := fun k hk => hlines k (List.mem_cons_of_mem _ hk)
    by_cases hmelts : t.Melts width line
    · rw [renumbers_cons_of_melts hmelts hlt]
      by_cases hbehind : ∃ k ∈ rest, k + 1 < t.lineCount
      · -- the line behind the one that melts is not the last line
        refine iff_of_false ?_ (not_not.2 hbehind)
        obtain ⟨k, hk, hnext⟩ := hbehind
        cases rest with
        | nil => cases hk
        | cons next rest =>
          have hbehind := (List.pairwise_cons.1 hrest).1
          have hle : next ≤ k := by
            rcases List.mem_cons.1 hk with rfl | hk
            · exact le_rfl
            · exact (hbehind k hk).le
          exact hline.outdentInTurn_ne_outdentAll hmelts (hindented next List.mem_cons_self)
            (hlt next List.mem_cons_self) (by omega) hbehind
      · -- it is the last line, or there is none
        refine iff_of_true (hline.outdentInTurn_eq_outdentAll hmelts hsorted hindented fun k hk => ?_) hbehind
        have hline_lt := (hindented k hk).line_lt
        by_contra hne
        exact hbehind ⟨k, hk, by omega⟩
    · rw [renumbers_cons_of_not_melts hline hmelts hlt hindented]
      have hall : t.outdentAll width (line :: rest) = (t.outdent width line).outdentAll width rest :=
        (hline.outdentAll_outdent hmelts hsorted hindented).symm
      rw [hall, outdentInTurn_cons]
      exact ih hrest fun k hk => (hline.outdent (hindented k hk) hmelts (hlt k hk)).1

/-! ## Ink -/

/-- the ink before the blanks of a line, in their place, and behind them -/
theorem ink_eq_of_line (t : Text) (width line : Nat) :
    t.ink = ink (t.take (t.lineStart line)) ++ ((t.slice (t.lineStart line) (t.lineStart line + width)).ink ++
      ink (t.drop (t.lineStart line + width))) := by
  rw [← ink_append, ← drop_eq_slice_append, ink_take_append_drop]

theorem ink_outdent {t : Text} {width line : Nat}
    (h : (t.slice (t.lineStart line) (t.lineStart line + width)).ink = []) :
    (t.outdent width line).ink = t.ink := by
  rw [t.ink_eq_of_line width line, h, outdent, ink_append, List.nil_append]

theorem length_ink_outdent (t : Text) (width line : Nat) :
    (t.outdent width line).ink.length + (t.slice (t.lineStart line) (t.lineStart line + width)).ink.length =
      t.ink.length := by
  rw [t.ink_eq_of_line width line, outdent, ink_append]
  simp only [List.length_append]
  omega

theorem length_ink_outdentInTurn_le (width : Nat) (lines : List Nat) (t : Text) :
    (t.outdentInTurn width lines).ink.length ≤ t.ink.length := by
  induction lines generalizing t with
  | nil => exact le_rfl
  | cons line rest ih =>
    have hlost := t.length_ink_outdent width line
    exact (ih _).trans (Nat.le.intro hlost)

/-- ink is lost exactly if some removal meets it -/
theorem ink_outdentInTurn_eq_iff (width : Nat) (lines : List Nat) (t : Text) :
    (t.outdentInTurn width lines).ink = t.ink ↔ ¬ t.Bites width lines := by
  induction lines generalizing t with
  | nil => exact iff_of_true rfl id
  | cons line rest ih =>
    by_cases hslice : (t.slice (t.lineStart line) (t.lineStart line + width)).ink = []
    · rw [outdentInTurn_cons, ← ink_outdent hslice, ih, Bites]
      simp only [hslice, ne_eq, not_true_eq_false, false_or]
    · refine iff_of_false (fun heq => ?_) (not_not.2 (Or.inl hslice))
      have hlost := t.length_ink_outdent width line
      have hle := length_ink_outdentInTurn_le width rest (t.outdent width line)
      have hpos := List.length_pos_of_ne_nil hslice
      rw [outdentInTurn_cons] at heq
      rw [heq] at hle
      omega

/-- blanks taken away, last line first, take no ink -/
theorem ink_outdentAll {t : Text} {width : Nat} {lines : List Nat} (hsorted : lines.Pairwise (· < ·))
    (hlines : ∀ line ∈ lines, t.Indented width line) : (t.outdentAll width lines).ink = t.ink := by
  induction lines with
  | nil => rfl
  | cons line rest ih =>
    obtain ⟨hlt, hrest⟩ := List.pairwise_cons.1 hsorted
    have hindented : ∀ k ∈ rest, t.Indented width k := fun k hk => hlines k (List.mem_cons_of_mem _ hk)
    obtain ⟨-, hline, -⟩ := (hlines line List.mem_cons_self).outdentAll fun k hk => ⟨hlt k hk, (hindented k hk).line_lt⟩
    calc (t.outdentAll width (line :: rest)).ink
        = ((t.outdentAll width rest).outdent width line).ink := rfl
      _ = (t.outdentAll width rest).ink := ink_outdent (ink_of_allBlank hline.blank)
      _ = t.ink := ih hrest hindented

/-- while no line is renumbered, no removal meets ink -/
theorem Bites.renumbers {t : Text} {width : Nat} {lines : List Nat} (h : t.Bites width lines)
    (hsorted : lines.Pairwise (· < ·)) (hlines : ∀ line ∈ lines, t.Indented width line) : t.Renumbers width lines := by
  by_contra hno
  refine (ink_outdentInTurn_eq_iff width lines t).1 ?_ h
  rw [(outdentInTurn_eq_outdentAll_iff hsorted hlines).2 hno, ink_outdentAll hsorted hlines]

end CodeEditor.Text
