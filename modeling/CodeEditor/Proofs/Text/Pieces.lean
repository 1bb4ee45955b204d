import CodeEditor.Proofs.Text.Lines
/-!
Reading at a seam.

A text in pieces is read at the seams through the starts and ends of the pieces. Where a piece is a line (`IsLine`), the
functions on lines give that piece: its number is the number of breaks before it.
-/

namespace CodeEditor.Text

/-- a line starts behind the text, as far as scans care: it is empty or ends in an LF -/
def endsInLineFeed (a : Text) : Bool :=
  a.getLast?.all (· == '\n')

/-- a line ends before the text, as far as scans care: it is empty or starts with an LF -/
def startsWithLineFeed (z : Text) : Bool :=
  z.head?.all (· == '\n')

variable {a u z : Text} {c : Char}

@[simp] theorem endsInLineFeed_concat (a : Text) (c : Char) : endsInLineFeed (a ++ [c]) = (c == '\n') := by
  simp [endsInLineFeed]

@[simp] theorem startsWithLineFeed_cons (c : Char) (z : Text) : startsWithLineFeed (c :: z) = (c == '\n') := rfl

@[simp] theorem charAt_seam (a : Text) (c : Char) (z : Text) : charAt (a ++ c :: z) a.length = c := by
  simp [charAt]

/-- behind a piece -/
theorem charAt_piece (a u : Text) (c : Char) (z : Text) : charAt (a ++ (u ++ c :: z)) (a.length + u.length) = c := by
  rw [← List.append_assoc, ← List.length_append, charAt_seam]

theorem startsLine_seam (a z : Text) : startsLine (a ++ z) a.length = a.endsInLineFeed := by
  rcases List.eq_nil_or_concat a with rfl | ⟨a, c, rfl⟩
  · rfl
  · have hchar : charAt (a ++ [c] ++ z) a.length = c := by rw [List.append_assoc, List.singleton_append, charAt_seam]
    rw [List.concat_eq_append, List.length_append, List.length_singleton, startsLine, hchar, endsInLineFeed_concat]

theorem endsLine_seam (a : Text) (c : Char) (z : Text) : endsLine (a ++ c :: z) a.length = (c == '\n') := by
  rw [endsLine, charAt_seam, decide_eq_false (by simp), Bool.false_or]

theorem length_lt_seam (a : Text) (c : Char) (z : Text) : a.length < (a ++ c :: z).length := by
  simp

/-- what stands behind a line -/
theorem charAt_behind (hz : z.startsWithLineFeed = true) (a : Text) :
    charAt (a ++ z) a.length = '\n' ∨ charAt (a ++ z) a.length = nul := by
  cases z with
  | nil => exact Or.inr (charAt_of_length_le _ (by simp))
  | cons c z =>
    obtain rfl : c = '\n' := by simpa using hz
    exact Or.inl (charAt_seam a _ z)

theorem slice_piece (a u z : Text) : slice (a ++ (u ++ z)) a.length (a.length + u.length) = u := by
  rw [slice, List.drop_left, Nat.add_sub_cancel_left, List.take_left]

/-! ## A line between two pieces -/

/-- the middle piece of three is a line -/
structure IsLine (a u z : Text) : Prop where
  before : a.endsInLineFeed = true
  line : ∀ c ∈ u, isBreak c = false
  behind : z.startsWithLineFeed = true

namespace IsLine

theorem breakEnds_line {u : Text} (hu : ∀ c ∈ u, isBreak c = false) : u.breakEnds = [] := by
  induction u with
  | nil => rfl
  | cons c u ih =>
    have hc : isBreak c = false := hu c List.mem_cons_self
    have hcr : ¬ (c = '\r' ∧ u.head? = some '\n') := by
      rintro ⟨rfl, -⟩
      cases hc
    have hrest := ih fun d hd => hu d (List.mem_cons_of_mem _ hd)
    rw [breakEnds] at hrest
    rw [breakEnds, breakEndsFrom_cons 0 c u hcr, hc, breakEndsFrom_add, hrest]
    rfl

/-- the breaks are those before and those behind the line -/
theorem breakEnds_eq (h : IsLine a u z) :
    (a ++ (u ++ z)).breakEnds = a.breakEnds ++ z.breakEnds.map (· + (a.length + u.length)) := by
  have hbefore : ¬ Joins a (u ++ z) := by
    rintro ⟨hlast, -⟩
    have hlf := h.before
    rw [endsInLineFeed, hlast] at hlf
    cases hlf
  have hbehind : ¬ Joins u z := by
    rintro ⟨hlast, -⟩
    have hbreak := h.line '\r' (List.mem_of_getLast? hlast)
    cases hbreak
  rw [breakEnds_append _ _ hbefore, breakEnds_append _ _ hbehind, breakEnds_line h.line, List.nil_append, List.map_map]
  congr 1
  refine List.map_congr_left fun e _ => ?_
  simp only [Function.comp_apply]
  omega

/-- an offset on the line -/
theorem lineOf_eq (h : IsLine a u z) {i : Nat} (hi : i ≤ u.length) :
    (a ++ (u ++ z)).lineOf (a.length + i) = a.breakEnds.length := by
  rw [lineOf, h.breakEnds_eq, List.countP_append, List.countP_eq_length.2, List.countP_eq_zero.2, Nat.add_zero]
  · intro e he
    obtain ⟨e', he', rfl⟩ := List.mem_map.1 he
    have hpos := (isBreakEnd_of_mem he').pos
    simp only [decide_eq_true_eq]
    omega
  · intro e he
    have hle := (isBreakEnd_of_mem he).le
    simp only [decide_eq_true_eq]
    omega

theorem lt_lineCount (h : IsLine a u z) : a.breakEnds.length < (a ++ (u ++ z)).lineCount := by
  rw [lineCount, h.breakEnds_eq, List.length_append]
  omega

/-- a text that ends in an LF has its last break end at its end -/
theorem getLast?_breakEnds (a : Text) : (a ++ ['\n']).breakEnds.getLast? = some (a.length + 1) := by
  by_cases hjoins : Joins a ['\n']
  · rw [breakEnds_append_of_joins hjoins, List.getLast?_append]
    simp [breakEnds, breakEndsFrom, isBreak, Nat.add_comm]
  · rw [breakEnds_append _ _ hjoins, List.getLast?_append]
    simp [breakEnds, breakEndsFrom, isBreak, Nat.add_comm]

theorem lineStart_eq (h : IsLine a u z) : (a ++ (u ++ z)).lineStart a.breakEnds.length = a.length := by
  rcases List.eq_nil_or_concat a with rfl | ⟨a, c, rfl⟩
  · exact lineStart_zero _
  · obtain rfl : c = '\n' := by simpa using h.before
    rw [List.concat_eq_append] at h ⊢
    have hlast := getLast?_breakEnds a
    obtain ⟨es, hes⟩ := List.getLast?_eq_some_iff.1 hlast
    have hbreaks := h.breakEnds_eq
    have hlt : es.length < (breakEnds (a ++ ['\n'] ++ (u ++ z))).length := by
      rw [hbreaks, hes]
      simp only [List.length_append, List.length_singleton]
      omega
    rw [hes, List.length_append, List.length_singleton, lineStart_succ hlt, List.getElem_of_eq hbreaks hlt]
    simp [hes]

theorem lineEnd_eq (h : IsLine a u z) : (a ++ (u ++ z)).lineEnd a.breakEnds.length = a.length + u.length := by
  cases z with
  | nil =>
    have hbreaks : (a ++ (u ++ [])).breakEnds = a.breakEnds := h.breakEnds_eq.trans (List.append_nil _)
    rw [← hbreaks, lineEnd_last]
    simp
  | cons c z =>
    obtain rfl : c = '\n' := by simpa using h.behind
    have hbreaks := h.breakEnds_eq
    rw [breakEnds_lf_cons, List.map_cons] at hbreaks
    have hlt : a.breakEnds.length < (a ++ (u ++ '\n' :: z)).breakEnds.length := by
      rw [hbreaks]
      simp
    rw [lineEnd_of_lt hlt, List.getElem_of_eq hbreaks hlt]
    simp

theorem lineText_eq (h : IsLine a u z) : (a ++ (u ++ z)).lineText a.breakEnds.length = u := by
  rw [lineText, if_pos h.lt_lineCount, h.lineStart_eq, h.lineEnd_eq, slice_piece]

theorem lineIndent_eq (h : IsLine a u z) : (a ++ (u ++ z)).lineIndent a.breakEnds.length = u.indentation := by
  rw [lineIndent, h.lineStart_eq, h.lineEnd_eq, slice_piece]

/-- a line is the line above the one behind its line feed -/
theorem length_breakEnds_concat (h : IsLine a u ['\n']) :
    (a ++ (u ++ ['\n'])).breakEnds.length = a.breakEnds.length + 1 := by
  rw [h.breakEnds_eq, List.length_append, List.length_map]
  rfl

end IsLine

end CodeEditor.Text
