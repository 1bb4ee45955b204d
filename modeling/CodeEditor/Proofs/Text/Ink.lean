import CodeEditor.Keys.Enter
import CodeEditor.Keys.IndentLines
import CodeEditor.Proofs.Text.Lines
import Mathlib.Data.List.DropRight
/-!
The ink of a text: what is left of it without blanks and breaks.

Editing keys move ink about but must not make or lose any. What they take away are stretches of blanks, found from
the shape of a line: its indentation, the blanks around an offset, a prefix or a suffix of either. Each of these is
shown here to hold no ink.
-/

namespace CodeEditor

namespace Text

/-- the characters that are neither blanks nor breaks -/
def ink (t : Text) : Text :=
  t.filter fun c => !(isBlank c || isBreak c)

@[simp] theorem ink_nil : ink [] = [] := rfl

@[simp] theorem ink_append (t u : Text) : ink (t ++ u) = ink t ++ ink u :=
  List.filter_append t u

theorem ink_eq_nil_iff {t : Text} : t.ink = [] ↔ ∀ c ∈ t, isBlank c = true ∨ isBreak c = true := by
  simp [ink, List.filter_eq_nil_iff, or_iff_not_imp_left]

theorem ink_take_append_drop (t : Text) (i : Nat) : ink (t.take i) ++ ink (t.drop i) = t.ink := by
  rw [← ink_append, List.take_append_drop]

theorem ink_of_subset {t u : Text} (h : t ⊆ u) (hu : u.ink = []) : t.ink = [] :=
  ink_eq_nil_iff.2 fun c hc => ink_eq_nil_iff.1 hu c (h hc)

theorem ink_of_allBlank {t : Text} (h : t.allBlank = true) : t.ink = [] :=
  ink_eq_nil_iff.2 fun c hc => Or.inl (List.all_eq_true.1 h c hc)

theorem ink_cons_break {c : Char} (h : isBreak c = true) (t : Text) : ink (c :: t) = t.ink := by
  rw [ink, List.filter_cons_of_neg (by simp [h])]; rfl

/-! ## Stretches of blanks -/

theorem breakEndsFrom_blanks (o n : Nat) (c : Text) :
    breakEndsFrom o (List.replicate n ' ' ++ c) = breakEndsFrom (o + n) c := by
  induction n generalizing o with
  | zero => rfl
  | succ n ih =>
    rw [List.replicate_succ, List.cons_append, breakEndsFrom_cons _ _ _ (by simp), ih, if_neg (by decide),
      List.nil_append, show o + 1 + n = o + (n + 1) by omega]

theorem allBlank_of_subset {t u : Text} (h : t ⊆ u) (hu : u.allBlank = true) : t.allBlank = true :=
  List.all_eq_true.2 fun c hc => List.all_eq_true.1 hu c (h hc)

theorem allBlank_append {t u : Text} (ht : t.allBlank = true) (hu : u.allBlank = true) : allBlank (t ++ u) = true := by
  rw [allBlank, List.all_append, Bool.and_eq_true]
  exact ⟨ht, hu⟩

theorem allBlank_takeWhile (t : Text) : allBlank (t.takeWhile isBlank) = true :=
  List.all_eq_true.2 fun _ hc => List.mem_takeWhile_imp hc

theorem allBlank_indentation (t : Text) : t.indentation.allBlank = true :=
  allBlank_takeWhile t

theorem allBlank_replicate {c : Char} (h : isBlank c = true) (n : Nat) : allBlank (List.replicate n c) = true :=
  List.all_eq_true.2 fun d hd => by rw [List.eq_of_mem_replicate hd]; exact h

theorem ink_indentation (t : Text) : t.indentation.ink = [] :=
  ink_of_allBlank t.allBlank_indentation

theorem ink_lineIndent (t : Text) (line : Nat) : (t.lineIndent line).ink = [] :=
  ink_indentation _

theorem slice_prefix (t : Text) (i : Nat) {j k : Nat} (h : j ≤ k) : t.slice i j <+: t.slice i k :=
  List.take_prefix_take_left (by omega)

theorem drop_slice (t : Text) {i j : Nat} (h : i ≤ j) (k : Nat) : (t.slice i k).drop (j - i) = t.slice j k := by
  rw [slice, slice, List.drop_take, List.drop_drop]
  congr 1
  · omega
  · congr 1; omega

theorem slice_suffix (t : Text) {i j : Nat} (h : i ≤ j) (k : Nat) : t.slice j k <:+ t.slice i k := by
  rw [← drop_slice t h]
  exact List.drop_suffix _ _

/-- a stretch cut to the text is the same stretch -/
theorem slice_min (t : Text) {i j : Nat} (h : i ≤ j) : t.slice (min i t.length) (min j t.length) = t.slice i j := by
  by_cases hi : i ≤ t.length
  · rw [min_eq_left hi, slice, slice, List.take_eq_take_iff, List.length_drop]
    omega
  · rw [slice, slice, List.drop_eq_nil_of_le (by omega), List.drop_eq_nil_of_le (by omega), List.take_nil,
      List.take_nil]

/-- a leading run of a stretch is the stretch of its length -/
theorem slice_takeWhile (p : Char → Bool) (t : Text) (i j : Nat) :
    t.slice i (i + ((t.slice i j).takeWhile p).length) = (t.slice i j).takeWhile p := by
  have hprefix : (t.slice i j).takeWhile p <+: t.drop i := (List.takeWhile_prefix p).trans (List.take_prefix _ _)
  rw [slice, Nat.add_sub_cancel_left]
  exact (List.prefix_iff_eq_take.1 hprefix).symm

/-- a trailing run of a stretch, too -/
theorem slice_rtakeWhile (p : Char → Bool) {t : Text} {i j : Nat} (hij : i ≤ j) (hj : j ≤ t.length) :
    t.slice (j - ((t.slice i j).reverse.takeWhile p).length) j = (t.slice i j).rtakeWhile p := by
  have hsuffix := List.rtakeWhile_suffix p (t.slice i j)
  have hlen : ((t.slice i j).rtakeWhile p).length = ((t.slice i j).reverse.takeWhile p).length := List.length_reverse
  have hslice : (t.slice i j).length = j - i := by
    rw [slice, List.length_take, List.length_drop]; omega
  have hle := hsuffix.length_le
  rw [List.suffix_iff_eq_drop.1 hsuffix, hlen, hslice, ← drop_slice t (show i ≤ j - _ by omega)]
  congr 1
  omega

theorem slice_lineIndent (t : Text) (line : Nat) :
    t.slice (t.lineStart line) (t.lineIndentEnd line) = t.lineIndent line :=
  slice_takeWhile _ t _ _

/-- the break at the end of a line -/
theorem ink_slice_lineEnd {t : Text} {line : Nat} (h : t.lineEnd line < t.length) :
    (t.slice (t.lineEnd line) (t.lineEnd line + 1)).ink = [] := by
  have hchar : isBreak (t.charAt (t.lineEnd line)) = true := isBreak_lineEnd h
  rw [charAt_eq_getElem _ h] at hchar
  rw [slice, Nat.add_sub_cancel_left, List.drop_eq_getElem_cons h, List.take_succ_cons, List.take_zero,
    ink_cons_break hchar]
  rfl

/-- some of the blanks behind an offset -/
theorem allBlank_slice_of_le_takeWhile {t : Text} {offset n : Nat}
    (h : n ≤ ((t.drop offset).takeWhile isBlank).length) :
    (t.slice offset (offset + n)).allBlank = true := by
  refine allBlank_of_subset ?_ (allBlank_takeWhile (t.drop offset))
  have hprefix := List.takeWhile_prefix isBlank (l := t.drop offset)
  rw [slice, Nat.add_sub_cancel_left, List.prefix_iff_eq_take.1 hprefix]
  exact (List.take_prefix_take_left h).subset

/-- the first blanks of a line -/
theorem allBlank_slice_lineStart (t : Text) {line width : Nat} (h : width ≤ (t.lineIndent line).length) :
    (t.slice (t.lineStart line) (t.lineStart line + width)).allBlank = true := by
  have hprefix := slice_prefix t (t.lineStart line) (Nat.add_le_add_left h (t.lineStart line))
  refine allBlank_of_subset hprefix.subset ?_
  rw [show t.lineStart line + (t.lineIndent line).length = t.lineIndentEnd line from rfl, slice_lineIndent]
  exact allBlank_takeWhile _

/-- the last blanks of an indentation -/
theorem allBlank_slice_lineIndentEnd (t : Text) {line width : Nat} (h : width ≤ (t.lineIndent line).length) :
    (t.slice (t.lineIndentEnd line - width) (t.lineIndentEnd line)).allBlank = true := by
  have hstart : t.lineStart line ≤ t.lineIndentEnd line - width := by rw [lineIndentEnd]; omega
  refine allBlank_of_subset (slice_suffix t hstart _).subset ?_
  rw [slice_lineIndent]
  exact allBlank_takeWhile _

/-- **The blanks around an offset** are blank, before it and behind it. -/
theorem allBlank_blanksAround {t : Text} {offset : Nat} (h : offset ≤ t.length) :
    (t.slice (blanksAround t offset).1 offset).allBlank = true ∧
    (t.slice offset (blanksAround t offset).2).allBlank = true := by
  set line := t.lineOf offset with hline
  set before := ((t.slice (t.lineStart line) offset).reverse.takeWhile isBlank).length with hbefore
  set behind := ((t.slice offset (t.lineEnd line)).takeWhile isBlank).length with hbehind
  have hright : (t.slice offset (offset + behind)).allBlank = true := by
    rw [hbehind, slice_takeWhile]
    exact allBlank_takeWhile _
  have hleft : (t.slice (offset - before) offset).allBlank = true := by
    rw [hbefore, slice_rtakeWhile isBlank (t.lineStart_lineOf_le offset) h]
    exact List.all_eq_true.2 fun c hc => List.mem_rtakeWhile_imp hc
  have hnone : (t.slice offset offset).allBlank = true := by rw [slice, Nat.sub_self, List.take_zero]; rfl
  simp only [blanksAround, ← hline, ← hbefore, ← hbehind]
  split_ifs
  · exact ⟨hnone, hright⟩
  · exact ⟨hleft, hright⟩

theorem blanksAround_le (t : Text) (offset : Nat) : (blanksAround t offset).1 ≤ (blanksAround t offset).2 := by
  simp only [blanksAround]
  split_ifs <;> omega

/-- the blanks around an offset lie around it, and in the text -/
theorem blanksAround_bounds {t : Text} {offset : Nat} (h : offset ≤ t.length) :
    (blanksAround t offset).1 ≤ offset ∧ offset ≤ (blanksAround t offset).2 ∧ (blanksAround t offset).2 ≤ t.length := by
  have hbehind : ((t.slice offset (t.lineEnd (t.lineOf offset))).takeWhile isBlank).length ≤ t.length - offset :=
    calc ((t.slice offset (t.lineEnd (t.lineOf offset))).takeWhile isBlank).length
        ≤ (t.slice offset (t.lineEnd (t.lineOf offset))).length := (List.takeWhile_prefix _).length_le
      _ ≤ (t.drop offset).length := List.length_take_le' _ _
      _ = t.length - offset := List.length_drop
  simp only [blanksAround]
  split_ifs
  · exact ⟨le_rfl, by omega, by omega⟩
  · exact ⟨Nat.sub_le _ _, by omega, by omega⟩

theorem ink_blanksAround {t : Text} {offset : Nat} (h : offset ≤ t.length) :
    (t.slice (blanksAround t offset).1 (blanksAround t offset).2).ink = [] := by
  obtain ⟨hstart, hstop, -⟩ := blanksAround_bounds h
  obtain ⟨hleft, hright⟩ := allBlank_blanksAround h
  rw [← slice_append t hstart hstop, ink_append, ink_of_allBlank hleft, ink_of_allBlank hright]
  rfl

theorem ink_neighbourIndent (t : Text) (offset : Nat) : (Buffer.neighbourIndent t offset).ink = [] := by
  simp only [Buffer.neighbourIndent]
  split_ifs
  · exact ink_lineIndent t _
  · exact ink_lineIndent t _

end Text

end CodeEditor
