import CodeEditor.Cleanup
import CodeEditor.Proofs.Buffer.Plain
import CodeEditor.Proofs.Keys.NewLine
import CodeEditor.Proofs.Text.LineEnding
import Mathlib.Data.List.DropRight
/-!
Whitespace cleanup.

A text without CR is its rows and its breaks, one break between each two rows (`Text.Normal.stacked`), and every such
stack of rows and breaks is the stack of its text (`Text.Stacked.rows_joinRows`). Trimming goes down the stack: the text
before the line at hand is trimmed and ends in a break, the text from there on is as it was (`trimLines_stacked`). The
blanks that go are part of a row, so no break is lost and none is made, and the lines counted before the first one is
trimmed are still there when the last one is.
-/

namespace CodeEditor

namespace Text

/-! ## Rows and breaks -/

/-- rows with a break behind each of them but the last -/
def joinRows (rows : List Text) (breaks : Text) : Text :=
  (List.zipWith (· ++ ·) rows (breaks.map ([·]) ++ [[]])).flatten

/-- rows that hold no break, and one break between each two; none of the breaks is a CR -/
inductive Stacked : List Text → Text → Prop where
  | last {u : Text} : (∀ d ∈ u, isBreak d = false) → Stacked [u] []
  | line {u : Text} {c : Char} {rows : List Text} {breaks : Text} :
      (∀ d ∈ u, isBreak d = false) → isBreak c = true → c ≠ '\r' →
      Stacked rows breaks → Stacked (u :: rows) (c :: breaks)

@[simp] theorem joinRows_last (u : Text) : joinRows [u] [] = u := by
  simp [joinRows]

@[simp] theorem joinRows_line (u : Text) (c : Char) (rows : List Text) (breaks : Text) :
    joinRows (u :: rows) (c :: breaks) = u ++ c :: joinRows rows breaks := by
  simp [joinRows]

theorem normal_of_unbroken {u : Text} (hu : ∀ d ∈ u, isBreak d = false) : u.Normal := by
  intro hcr
  have hbreak := hu '\r' hcr
  cases hbreak

namespace Stacked

variable {rows : List Text} {breaks : Text}

/-- **The rows of a stack** are those it is made of. -/
theorem rows_joinRows (h : Stacked rows breaks) : (joinRows rows breaks).rows = rows := by
  induction h with
  | last hu => rw [joinRows_last, rows_of_breakEnds (IsLine.breakEnds_line hu)]
  | line hu hc hcr _ ih => rw [joinRows_line, rows_break_append hu hc hcr, ih]

theorem breaks_joinRows (h : Stacked rows breaks) : (joinRows rows breaks).breaks = breaks := by
  induction h with
  | last hu => rw [joinRows_last, breaks_of_unbroken hu]
  | line hu hc _ _ ih =>
    rw [joinRows_line, breaks_append, breaks_of_unbroken hu, List.nil_append, Text.breaks, List.filter_cons_of_pos hc]
    exact congrArg _ ih

theorem normal_joinRows (h : Stacked rows breaks) : (joinRows rows breaks).Normal := by
  induction h with
  | last hu => exact joinRows_last _ ▸ normal_of_unbroken hu
  | line hu _ hcr _ ih => exact joinRows_line _ _ _ _ ▸ normal_append.2 ⟨normal_of_unbroken hu, normal_cons.2 ⟨hcr, ih⟩⟩

/-- parts of the rows, on the same lines -/
theorem map (h : Stacked rows breaks) {f : Text → Text} (hf : ∀ u, f u ⊆ u) : Stacked (rows.map f) breaks := by
  induction h with
  | last hu => exact .last fun d hd => hu d (hf _ hd)
  | line hu hc hcr _ ih => exact .line (fun d hd => hu d (hf _ hd)) hc hcr ih

end Stacked

/-- a text without CR is a stack of rows and breaks -/
theorem Normal.exists_stacked {t : Text} (h : t.Normal) :
    ∃ rows breaks, Stacked rows breaks ∧ joinRows rows breaks = t := by
  induction t with
  | nil => exact ⟨[[]], [], .last fun d hd => absurd hd List.not_mem_nil, joinRows_last []⟩
  | cons c t ih =>
    obtain ⟨hcr, ht⟩ := normal_cons.1 h
    obtain ⟨rows, breaks, hstacked, rfl⟩ := ih ht
    cases hc : isBreak c with
    | true => exact ⟨[] :: rows, c :: breaks, .line (fun d hd => absurd hd List.not_mem_nil) hc hcr hstacked, by simp⟩
    | false =>
      -- the character goes in front of the first row
      have hfirst : ∀ {u : Text}, (∀ d ∈ u, isBreak d = false) → ∀ d ∈ c :: u, isBreak d = false := fun hu =>
        List.forall_mem_cons.2 ⟨hc, hu⟩
      cases hstacked with
      | last hu => exact ⟨_, _, .last (hfirst hu), by simp⟩
      | line hu hd hdr hrest => exact ⟨_, _, .line (hfirst hu) hd hdr hrest, by simp⟩

/-- **A text without CR is its rows and its breaks.** -/
theorem Normal.stacked {t : Text} (h : t.Normal) : Stacked t.rows t.breaks ∧ joinRows t.rows t.breaks = t := by
  obtain ⟨rows, breaks, hstacked, rfl⟩ := h.exists_stacked
  rw [hstacked.rows_joinRows, hstacked.breaks_joinRows]
  exact ⟨hstacked, rfl⟩

/-- a text without CR does not end in half a break -/
theorem Normal.not_joins {t : Text} (h : t.Normal) (z : Text) : ¬ Joins t z :=
  fun hjoins => h (List.mem_of_getLast? hjoins.1)

/-! ## The text before a line -/

/-- rows that are ended, each by its break, so that the next line starts behind them; none of the breaks is a CR -/
structure Ended (a : Text) (before : List Text) : Prop where
  normal : a.Normal
  rows : a.rows = before ++ [[]]

theorem ended_nil : Ended [] [] :=
  ⟨normal_nil, rfl⟩

namespace Ended

variable {a : Text} {before : List Text} (h : Ended a before)
include h

/-- the rows behind are what they are without the text before -/
theorem rows_append {z : Text} {behind : List Text} (hz : z.rows = behind) : Text.rows (a ++ z) = before ++ behind := by
  rw [z.rows_eq_cons] at hz
  subst hz
  exact Text.rows_append (h.normal.not_joins z) h.rows z.rows_eq_cons

theorem lineText_append {z u : Text} {behind : List Text} (hz : z.rows = u :: behind) :
    Text.lineText (a ++ z) before.length = u := by
  have hrow : (Text.rows (a ++ z))[before.length]? = some u := by rw [h.rows_append hz]; simp
  exact lineText_of_rows hrow

theorem lineStart_append (z : Text) : Text.lineStart (a ++ z) before.length = a.length := by
  have hcount : before.length + 1 = a.lineCount := by
    rw [← length_rows, h.rows, List.length_append, List.length_singleton]
  have hlast : before.length = a.breakEnds.length := Nat.succ.inj hcount
  have hempty : a.lineText before.length = [] := lineText_of_rows (by simp [h.rows])
  have hlen := length_lineText (show before.length < a.lineCount by omega)
  have hle := a.lineStart_le_length before.length
  rw [hempty, List.length_nil, hlast, lineEnd_last] at hlen
  rw [lineStart_append_left (h.normal.not_joins z) (by omega)]
  rw [hlast] at hle ⊢
  omega

/-- one more row is ended -/
theorem concat {u : Text} (hu : ∀ d ∈ u, isBreak d = false) {c : Char} (hc : isBreak c = true) (hcr : c ≠ '\r') :
    Ended (a ++ (u ++ [c])) (before ++ [u]) := by
  have hrows : Text.rows (u ++ [c]) = [u, []] := rows_break_append hu hc hcr []
  refine ⟨normal_append.2 ⟨h.normal, normal_append.2 ⟨normal_of_unbroken hu, normal_cons.2 ⟨hcr, normal_nil⟩⟩⟩, ?_⟩
  rw [h.rows_append hrows, List.append_assoc, List.singleton_append]

end Ended

/-! ## Trailing blanks -/

theorem trimEnd_subset (u : Text) : u.trimEnd ⊆ u :=
  (List.rdropWhile_prefix isBlank u).subset

theorem trimEnd_trimEnd (u : Text) : u.trimEnd.trimEnd = u.trimEnd :=
  List.rdropWhile_idempotent isBlank u

/-- what is not shorter has lost nothing -/
theorem length_trimEnd_eq_iff {u : Text} : u.trimEnd.length = u.length ↔ u.trimEnd = u :=
  ⟨(List.rdropWhile_prefix isBlank u).eq_of_length, congrArg List.length⟩

/-- an LF at the end of a text starts one more line -/
theorem rows_append_lf {t : Text} (h : t.Normal) : rows (t ++ ['\n']) = t.rows ++ [[]] := by
  rw [rows_append (h.not_joins ['\n']) t.rows_eq_concat (show rows ['\n'] = [] :: [[]] from rfl), List.append_nil,
    t.rows_eq_concat, List.append_assoc, List.singleton_append]

/-- the text with no row ending in blanks, and an LF at its end unless it is empty -/
def cleaned (t : Text) : Text :=
  let trimmed := joinRows (t.rows.map trimEnd) t.breaks
  if trimmed = [] ∨ trimmed.getLast? = some '\n' then trimmed else trimmed ++ ['\n']

theorem cleaned_end (t : Text) : t.cleaned = [] ∨ t.cleaned.getLast? = some '\n' := by
  unfold cleaned
  dsimp only
  split_ifs with hend
  · exact hend
  · exact .inr List.getLast?_concat

namespace Normal

variable {t : Text} (h : t.Normal)
include h

theorem stacked_trimmed : Stacked (t.rows.map trimEnd) t.breaks :=
  h.stacked.1.map trimEnd_subset

theorem cleaned : t.cleaned.Normal := by
  unfold Text.cleaned
  dsimp only
  split_ifs
  · exact h.stacked_trimmed.normal_joinRows
  · exact normal_append.2 ⟨h.stacked_trimmed.normal_joinRows, by decide⟩

theorem trimEnd_of_mem_rows_cleaned {row : Text} (hrow : row ∈ t.cleaned.rows) : row.trimEnd = row := by
  have htrimmed : ∀ row ∈ t.rows.map trimEnd, row.trimEnd = row := by
    intro row hrow
    obtain ⟨row, -, rfl⟩ := List.mem_map.1 hrow
    exact trimEnd_trimEnd row
  have hrows := h.stacked_trimmed.rows_joinRows
  unfold Text.cleaned at hrow
  dsimp only at hrow
  split_ifs at hrow
  · rw [hrows] at hrow
    exact htrimmed row hrow
  · -- the line that the LF starts is empty
    rw [rows_append_lf h.stacked_trimmed.normal_joinRows, hrows] at hrow
    rcases List.mem_append.1 hrow with hrow | hrow
    · exact htrimmed row hrow
    · rw [List.mem_singleton.1 hrow]
      rfl

theorem cleaned_cleaned : t.cleaned.cleaned = t.cleaned := by
  have hrows : t.cleaned.rows.map trimEnd = t.cleaned.rows :=
    (List.map_congr_left fun _ => h.trimEnd_of_mem_rows_cleaned).trans (List.map_id _)
  have hjoin := h.cleaned.stacked.2
  rw [Text.cleaned, hrows, hjoin]
  exact if_pos t.cleaned_end

end Normal

end Text

namespace Buffer

open Text

variable {b : Buffer}

/-! ## Trimming -/

theorem trimLine_of_trimmed {line : Nat} (h : trimEnd (b.text.lineText line) = b.text.lineText line) :
    b.trimLine line = (false, b) := by
  rw [trimLine]
  exact if_pos (congrArg List.length h)

theorem trimLines_of_trimmed {lines : List Nat}
    (h : ∀ line ∈ lines, trimEnd (b.text.lineText line) = b.text.lineText line) :
    b.trimLines lines = (0, b) := by
  induction lines with
  | nil => rfl
  | cons line rest ih =>
    obtain ⟨hline, hrest⟩ := List.forall_mem_cons.1 h
    rw [trimLines, trimLine_of_trimmed hline]
    dsimp only
    rw [ih hrest]
    rfl

/-- **One line** loses the blanks at its end, and nothing around it goes. -/
theorem trimLine_ended {a u z : Text} {before behind : List Text} (ha : Ended a before)
    (hrows : rows (u ++ z) = u :: behind) (hb : b.text = a ++ (u ++ z)) :
    (b.trimLine before.length).1 = decide (u.trimEnd ≠ u) ∧
    (b.trimLine before.length).2.text = a ++ (u.trimEnd ++ z) := by
  have htext : b.text.lineText before.length = u := hb ▸ ha.lineText_append hrows
  have hstart : b.text.lineStart before.length = a.length := hb ▸ ha.lineStart_append (u ++ z)
  simp only [trimLine, htext, hstart, length_trimEnd_eq_iff]
  split_ifs with hkept
  · rw [decide_eq_false (not_not.2 hkept), hkept]
    exact ⟨rfl, hb⟩
  · refine ⟨(decide_eq_true hkept).symm, ?_⟩
    have hprefix : u.trimEnd <+: u := List.rdropWhile_prefix isBlank u
    have hbefore : (a ++ (u ++ z)).take (a.length + u.trimEnd.length) = a ++ u.trimEnd := by
      rw [List.take_length_add_append, List.take_append_of_le_length hprefix.length_le,
        ← List.prefix_iff_eq_take.1 hprefix]
    have hbehind : (a ++ (u ++ z)).drop (a.length + u.length) = z := by
      rw [← List.drop_drop, List.drop_left, List.drop_left]
    rw [erase_text b (Nat.add_le_add_left hprefix.length_le _), hb, hbefore, hbehind, List.append_assoc]

/-- **Down the lines**: each of them loses its own blanks, and those that have some are counted. -/
theorem trimLines_stacked {rows : List Text} {breaks : Text} (h : Stacked rows breaks) {a : Text} {before : List Text}
    (ha : Ended a before) (hb : b.text = a ++ joinRows rows breaks) :
    (b.trimLines (List.range' before.length rows.length)).1 = rows.countP (fun u => u.trimEnd ≠ u) ∧
      (b.trimLines (List.range' before.length rows.length)).2.text = a ++ joinRows (rows.map trimEnd) breaks := by
  induction h generalizing a b before with
  | @last u hu =>
    have hrows : Text.rows (u ++ []) = [u] := by rw [List.append_nil, rows_of_breakEnds (IsLine.breakEnds_line hu)]
    have hline : b.text = a ++ (u ++ []) := by rw [hb, joinRows_last, List.append_nil]
    obtain ⟨hflag, htext⟩ := trimLine_ended ha hrows hline
    rw [List.append_nil] at htext
    simp only [List.length_singleton, List.range'_one, trimLines, hflag, List.map_singleton, joinRows_last,
      List.countP_singleton]
    exact ⟨trivial, htext⟩
  | @line u c rows breaks hu hc hcr hrest ih =>
    rw [joinRows_line] at hb
    obtain ⟨hflag, htext⟩ := trimLine_ended ha (rows_break_append hu hc hcr _) hb
    -- the trimmed line ends in the same break, so the next line is the one that was the next before
    have hended := ha.concat (fun d hd => hu d (trimEnd_subset u hd)) hc hcr
    have hbehind : (b.trimLine before.length).2.text = a ++ (u.trimEnd ++ [c]) ++ joinRows rows breaks := by
      rw [htext, List.append_assoc, List.append_assoc, List.singleton_append]
    obtain ⟨hcount, hrows⟩ := ih hended hbehind
    rw [List.length_append, List.length_singleton] at hcount hrows
    simp only [List.length_cons, List.range'_succ, trimLines, hflag, hcount, hrows, List.map_cons, joinRows_line,
      List.countP_cons, List.append_assoc, List.singleton_append, and_true]
    split_ifs <;> rfl

/-! ## The end of the text -/

theorem startsLine_length_iff (t : Text) : t.startsLine t.length = true ↔ t = [] ∨ t.getLast? = some '\n' := by
  have hseam := startsLine_seam t []
  rw [List.append_nil] at hseam
  rw [hseam, endsInLineFeed]
  rcases List.eq_nil_or_concat t with rfl | ⟨t, c, rfl⟩
  · simp
  · simp

theorem endWithNewline_text (b : Buffer) :
    b.endWithNewline.text = if b.text = [] ∨ b.text.getLast? = some '\n' then b.text else b.text ++ ['\n'] := by
  simp only [endWithNewline, length, startsLine_length_iff]
  split_ifs
  · rfl
  · rw [insert_text, List.take_length, List.drop_length, List.append_nil]

/-- there is nothing to do if no line has blanks at its end and the text ends as it should -/
theorem cleanup_of_trimmed (hrows : ∀ u ∈ b.text.rows, u.trimEnd = u)
    (hend : b.text = [] ∨ b.text.getLast? = some '\n') :
    b.cleanup = (0, b) := by
  have hlines : ∀ line ∈ List.range b.text.lineCount, trimEnd (b.text.lineText line) = b.text.lineText line :=
    fun line hline =>
    hrows _ (List.mem_map_of_mem hline)
  rw [cleanup, trimLines_of_trimmed hlines]
  dsimp only
  rw [endWithNewline, length, if_pos ((startsLine_length_iff b.text).2 hend)]

/-- **A text without CR is cleaned**: the rows that lose blanks are counted, and the text is the cleaned one. -/
theorem cleanup_eq (h : b.text.Normal) :
    b.cleanup.1 = b.text.rows.countP (fun row => row.trimEnd ≠ row) ∧ b.cleanup.2.text = b.text.cleaned := by
  obtain ⟨hstacked, hjoin⟩ := h.stacked
  obtain ⟨hcount, htext⟩ := trimLines_stacked hstacked ended_nil hjoin.symm
  rw [List.length_nil, length_rows, ← List.range_eq_range'] at hcount htext
  have hend := endWithNewline_text (b.trimLines (List.range b.text.lineCount)).2
  rw [htext] at hend
  exact ⟨hcount, hend⟩

/-- **Cleaning a text without CR** leaves the same lines, each with its own break and without the blanks at its end, and
an LF behind the last one unless the text is empty or ends in one. The lines that had such blanks are counted, and a
second run does nothing. -/
theorem cleanup_trims_rows (h : b.text.Normal) :
    let trimmed := joinRows (b.text.rows.map trimEnd) b.text.breaks
    (joinRows b.text.rows b.text.breaks = b.text ∧ trimmed.rows = b.text.rows.map trimEnd ∧
      trimmed.breaks = b.text.breaks) ∧
      b.cleanup.2.text = (if trimmed = [] ∨ trimmed.getLast? = some '\n' then trimmed else trimmed ++ ['\n']) ∧
      b.cleanup.1 = b.text.rows.countP (fun row => row.trimEnd ≠ row) ∧
      b.cleanup.2.cleanup = (0, b.cleanup.2) := by
  intro trimmed
  obtain ⟨hcount, htext⟩ := cleanup_eq h
  have hrows : trimmed.rows = b.text.rows.map trimEnd := h.stacked_trimmed.rows_joinRows
  refine ⟨⟨h.stacked.2, hrows, h.stacked_trimmed.breaks_joinRows⟩, htext, hcount, cleanup_of_trimmed ?_ ?_⟩
  · rw [htext]
    exact fun row => h.trimEnd_of_mem_rows_cleaned
  · rw [htext]
    exact b.text.cleaned_end

/-- a VT and an LS stay where they are, the last line is only blanks, and the LS in front of it does
not make up for an LF -/
theorem cleanup_of_mixed_breaks :
    let b := ofText "a \t\x0b\t \nb\u2028 ".toList
    b.text.Normal ∧ b.cleanup.2.text = "a\x0b\nb\u2028\n".toList ∧ b.cleanup.1 = 3 ∧
    b.cleanup.2.cleanup = (0, b.cleanup.2) := by
  intro b
  have hnormal : b.text.Normal := by decide
  obtain ⟨-, htext, hcount, hagain⟩ := cleanup_trims_rows hnormal
  exact ⟨hnormal, htext.trans (by decide), hcount.trans (by decide), hagain⟩

end Buffer

end CodeEditor
